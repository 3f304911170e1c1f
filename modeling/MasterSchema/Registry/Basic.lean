import MasterSchema.DataType

/-!
# The registry of data types

The registry holds the registered data types in the order they came, no two of them with the same
name in the same namespace. A data type's id is its place in that order.
-/

namespace MasterSchema

/-- What tells one data type from another. -/
def DataType.key (dataType : DataType) : Namespace × String :=
  (dataType.ns, dataType.name)

structure Registry where
  /-- In the order of registration. -/
  types : List DataType
  distinct : (types.map DataType.key).Nodup

namespace Registry

def empty : Registry := ⟨[], List.nodup_nil⟩

/-! ## 1. Registration -/

theorem nodup_map_concat {l : List DataType} {d : DataType} (hl : (l.map DataType.key).Nodup)
    (hd : d.key ∉ l.map DataType.key) : ((l ++ [d]).map DataType.key).Nodup := by
  rw [List.map_append, List.nodup_append]
  refine ⟨hl, by simp, ?_⟩
  intro a ha b hb
  rw [List.map_cons, List.map_nil, List.mem_singleton] at hb
  intro hab
  exact hd (hb ▸ hab ▸ ha)

/-- Adds a data type at the end, unless its name is taken in its namespace. -/
def register (r : Registry) (d : DataType) : Except SchemaError Registry :=
  if h : d.key ∈ r.types.map DataType.key then .error (.duplicateDataType d.name d.ns)
  else .ok ⟨r.types ++ [d], nodup_map_concat r.distinct h⟩

/-! ## 2. Lookup -/

/-- The data types declared directly in a namespace. -/
def inNamespace (r : Registry) (ns : Namespace) : List DataType :=
  r.types.filter fun d => d.ns == ns

/-- The data type of a name in a namespace. -/
def find (r : Registry) (name : String) (ns : Namespace) : Except LookupError DataType :=
  match (r.inNamespace ns).find? fun d => d.name == name with
  | some d => .ok d
  | none =>
    if (r.inNamespace ns).isEmpty then .error (.unknownNamespace ns)
    else .error (.unknownDataType ns name)

/-- The namespaces that hold a data type, in increasing order. -/
def namespaces (r : Registry) : List Namespace :=
  Namespace.sortedSet (r.types.map (·.ns))

/-- How many data types a namespace holds directly. -/
def countIn (r : Registry) (ns : Namespace) : Nat :=
  (r.inNamespace ns).length

def size (r : Registry) : Nat :=
  r.types.length

end Registry

end MasterSchema
