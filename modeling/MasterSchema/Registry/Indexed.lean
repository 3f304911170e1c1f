import MasterSchema.Log
import MasterSchema.Registry.Basic
import Std.Data.HashMap

/-!
# Registries with an index

An indexed registry finds a data type without going through all of them: its index has a bucket for
each namespace, and a bucket has the id for each name. An id is the place of a data type in the
order of registration, as a number of 32 bits.

* `register` answers a registration and leaves the registry that follows; a bucket is made before
  it is known whether the name is taken in it;
* `find`, `namespaces` and `countIn` ask the index, `get?` takes an id to its data type.
-/

namespace MasterSchema

deriving instance Hashable for Namespace

/-! ## 1. The index -/

/-- The ids of the data types of one namespace, by name. -/
abbrev Bucket := Std.HashMap String UInt32

/-- The buckets of the namespaces. -/
abbrev Index := Std.HashMap Namespace Bucket

namespace Index

/-- The bucket of a namespace, made empty if there is none, and the index that has it. -/
def entry (index : Index) (ns : Namespace) : Bucket × Index :=
  match index[ns]? with
  | some bucket => (bucket, index)
  | none => (∅, index.insert ns ∅)

/-- Every id is the place of one of `n` data types. -/
def InRange (index : Index) (n : Nat) : Prop :=
  ∀ (ns : Namespace) (bucket : Bucket) (name : String) (id : UInt32),
    index[ns]? = some bucket → bucket[name]? = some id → id.toNat < n

theorem entry_cases (index : Index) (ns : Namespace) :
    (∃ bucket, index[ns]? = some bucket ∧ entry index ns = (bucket, index))
      ∨ (index[ns]? = none ∧ entry index ns = (∅, index.insert ns ∅)) := by
  unfold entry
  cases h : index[ns]? with
  | some bucket => exact Or.inl ⟨bucket, rfl, rfl⟩
  | none => exact Or.inr ⟨rfl, rfl⟩

theorem inRange_empty : InRange ∅ 0 := by
  intro ns bucket name id hbucket
  rw [Std.HashMap.getElem?_empty] at hbucket
  cases hbucket

theorem inRange_entry {index : Index} {n : Nat} (h : InRange index n) (ns : Namespace) :
    InRange (entry index ns).2 n := by
  rcases entry_cases index ns with ⟨_, _, he⟩ | ⟨_, he⟩
  · rw [he]
    exact h
  · rw [he]
    intro ns' bucket name id hbucket hid
    rw [Std.HashMap.getElem?_insert] at hbucket
    split at hbucket
    · rw [← Option.some.inj hbucket, Std.HashMap.getElem?_empty] at hid
      cases hid
    · exact h ns' bucket name id hbucket hid

theorem inRange_insert {index : Index} {n : Nat} (h : InRange index n) (ns : Namespace)
    (name : String) : InRange ((entry index ns).2.insert ns
      ((entry index ns).1.insert name (UInt32.ofNat n))) (n + 1) := by
  have hplace : (UInt32.ofNat n).toNat < n + 1 := by
    rw [UInt32.toNat_ofNat']
    exact Nat.lt_succ_of_le (Nat.mod_le n _)
  intro ns' bucket name' id hbucket hid
  rw [Std.HashMap.getElem?_insert] at hbucket
  split at hbucket
  · rw [← Option.some.inj hbucket, Std.HashMap.getElem?_insert] at hid
    split at hid
    · rw [← Option.some.inj hid]
      exact hplace
    · rcases entry_cases index ns with ⟨old, hold, he⟩ | ⟨_, he⟩
      · rw [he] at hid
        exact Nat.lt_succ_of_lt (h ns old name' id hold hid)
      · rw [he, Std.HashMap.getElem?_empty] at hid
        cases hid
  · exact Nat.lt_succ_of_lt (inRange_entry h ns ns' bucket name' id hbucket hid)

end Index

/-- Data types with an index of their namespaces and names. -/
structure IndexedRegistry where
  /-- In the order of registration. -/
  types : List DataType
  index : Index
  inRange : Index.InRange index types.length

namespace IndexedRegistry

def empty : IndexedRegistry := ⟨[], ∅, Index.inRange_empty⟩

/-! ## 2. Registration -/

/-- Adds a data type at the end, unless its name is taken in its namespace. The answer is the id of
    the data type. -/
def register (r : IndexedRegistry) (d : DataType) : Logged SchemaError UInt32 × IndexedRegistry :=
  let bucket := (Index.entry r.index d.ns).1
  let index := (Index.entry r.index d.ns).2
  if bucket.contains d.name then
    (.fail (.duplicateDataType d.name d.ns), ⟨r.types, index, Index.inRange_entry r.inRange d.ns⟩)
  else
    let id := UInt32.ofNat r.types.length
    (.after [.registered d.name d.ns d.fields.length] (.ok id),
      { types := r.types ++ [d]
        index := index.insert d.ns (bucket.insert d.name id)
        inRange := by
          rw [List.length_append]
          exact Index.inRange_insert r.inRange d.ns d.name })

/-! ## 3. Lookup -/

/-- The data type of a name in a namespace. -/
def find (r : IndexedRegistry) (name : String) (ns : Namespace) : Except LookupError DataType :=
  match hbucket : r.index[ns]? with
  | none => .error (.unknownNamespace ns)
  | some bucket =>
    match hid : bucket[name]? with
    | none => .error (.unknownDataType ns name)
    | some id => .ok (r.types.get ⟨id.toNat, r.inRange ns bucket name id hbucket hid⟩)

/-- The data type with an id. -/
def get? (r : IndexedRegistry) (id : UInt32) : Option DataType :=
  r.types[id.toNat]?

/-- The namespaces that have a bucket, in increasing order. -/
def namespaces (r : IndexedRegistry) : List Namespace :=
  r.index.keys.mergeSort Namespace.le

/-- How many data types a namespace holds directly. -/
def countIn (r : IndexedRegistry) (ns : Namespace) : Nat :=
  match r.index[ns]? with
  | none => 0
  | some bucket => bucket.size

def size (r : IndexedRegistry) : Nat :=
  r.types.length

end IndexedRegistry

end MasterSchema
