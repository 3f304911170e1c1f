import MasterSchema.Proofs.Registry.Built
import MasterSchema.Proofs.Registry.Namespaces
import MasterSchema.Registry.Indexed

/-!
# The index of a registry

What registrations leave in an index, whatever data types they come with and however many of them
are refused.

* `Indexed` is the invariant: the index has a bucket for exactly the namespaces that hold a data
  type, and in it the place of each of them under its name;
* `register_refused` and `register_accepted` are one registration, `run` is a sequence of them;
* without its index such a registry is a `Registry` (`Indexed.toRegistry`), which accepts, refuses
  and finds the same (`Indexed.register_agrees`, `Indexed.find_eq`);
* `run_spec` says what a sequence of registrations answers, and what can be looked up afterwards.
-/

namespace MasterSchema

/-! ## 1. The index -/

namespace Index

/-- The ids of a namespace's data types, none if it has no bucket. -/
def bucketOf (index : Index) (ns : Namespace) : Bucket :=
  index.getD ns ∅

theorem entry_fst (index : Index) (ns : Namespace) : (entry index ns).1 = bucketOf index ns := by
  rw [bucketOf, Std.HashMap.getD_eq_getD_getElem?]
  rcases entry_cases index ns with ⟨bucket, hbucket, he⟩ | ⟨hnone, he⟩
  · rw [he, hbucket, Option.getD_some]
  · rw [he, hnone, Option.getD_none]

variable {index : Index} {ns ns' : Namespace} {bucket : Bucket}

theorem entry_of_mem (h : ns ∈ index) : (entry index ns).2 = index := by
  rcases entry_cases index ns with ⟨_, _, he⟩ | ⟨hnone, _⟩
  · rw [he]
  · rw [← Std.HashMap.isSome_getElem?_iff_mem, hnone] at h
    cases h

theorem mem_of_mem_bucketOf {name : String} (h : name ∈ bucketOf index ns) : ns ∈ index := by
  by_contra hns
  rw [bucketOf, Std.HashMap.getD_eq_fallback hns] at h
  exact Std.HashMap.not_mem_empty h

theorem bucketOf_eq (h : index[ns]? = some bucket) : bucketOf index ns = bucket := by
  rw [bucketOf, Std.HashMap.getD_eq_getD_getElem?, h, Option.getD_some]

/-- A bucket put in the place of the one that `entry` found is the bucket of its namespace. -/
theorem getElem?_insert_entry (index : Index) (ns ns' : Namespace) (bucket : Bucket) :
    ((entry index ns).2.insert ns bucket)[ns']?
      = if ns = ns' then some bucket else index[ns']? := by
  rw [Std.HashMap.getElem?_insert]
  by_cases h : ns = ns'
  · simp [h]
  · rcases entry_cases index ns with ⟨_, _, he⟩ | ⟨_, he⟩
    · simp [he, h]
    · simp [he, h, Std.HashMap.getElem?_insert]

theorem mem_insert_entry :
    ns' ∈ (entry index ns).2.insert ns bucket ↔ ns = ns' ∨ ns' ∈ index := by
  rw [← Std.HashMap.isSome_getElem?_iff_mem, ← Std.HashMap.isSome_getElem?_iff_mem,
    getElem?_insert_entry]
  by_cases h : ns = ns' <;> simp [h]

theorem bucketOf_insert_entry : bucketOf ((entry index ns).2.insert ns bucket) ns'
    = if ns = ns' then bucket else bucketOf index ns' := by
  rw [bucketOf, bucketOf, Std.HashMap.getD_eq_getD_getElem?, Std.HashMap.getD_eq_getD_getElem?,
    getElem?_insert_entry]
  by_cases h : ns = ns' <;> simp [h]

end Index

namespace IndexedRegistry

/-! ## 2. The invariant -/

/-- The index says where each data type is, and nothing else. -/
structure Indexed (r : IndexedRegistry) : Prop where
  distinct : (r.types.map DataType.key).Nodup
  namespaces : ∀ ns, ns ∈ r.index ↔ ∃ d ∈ r.types, d.ns = ns
  ids : ∀ (ns : Namespace) (name : String) (id : UInt32),
    (Index.bucketOf r.index ns)[name]? = some id ↔
      ∃ d, r.types[id.toNat]? = some d ∧ d.key = (ns, name)
  sizes : ∀ ns, (Index.bucketOf r.index ns).size = (r.types.filter (·.ns = ns)).length

theorem indexed_empty : Indexed empty where
  distinct := List.nodup_nil
  namespaces ns := by simp [empty]
  ids ns name id := by simp [empty, Index.bucketOf]
  sizes ns := by simp [empty, Index.bucketOf]

section Steps

variable {r : IndexedRegistry} {d : DataType}

/-- A name is in a namespace's bucket exactly if a data type has both. -/
theorem Indexed.mem_bucketOf_iff (h : r.Indexed) (hfew : r.types.length < 2 ^ 32) :
    d.name ∈ Index.bucketOf r.index d.ns ↔ d.key ∈ r.types.map DataType.key := by
  rw [← Std.HashMap.isSome_getElem?_iff_mem, Option.isSome_iff_exists, List.mem_map]
  constructor
  · rintro ⟨id, hid⟩
    obtain ⟨d', hd', hkey⟩ := (h.ids _ _ _).1 hid
    exact ⟨d', List.mem_of_getElem? hd', hkey⟩
  · rintro ⟨d', hd', hkey⟩
    obtain ⟨i, hi⟩ := List.mem_iff_getElem?.1 hd'
    have hlt : i < 2 ^ 32 := (List.getElem?_eq_some_iff.1 hi).1.trans hfew
    refine ⟨UInt32.ofNat i, (h.ids _ _ _).2 ⟨d', ?_, hkey⟩⟩
    rw [UInt32.toNat_ofNat_of_lt' hlt]
    exact hi

/-- **A refused registration leaves the registry as it is.** -/
theorem register_refused (h : d.name ∈ Index.bucketOf r.index d.ns) :
    r.register d = (.fail (.duplicateDataType d.name d.ns), r) := by
  have hindex : (Index.entry r.index d.ns).2 = r.index :=
    Index.entry_of_mem (Index.mem_of_mem_bucketOf h)
  have hcontains : (Index.entry r.index d.ns).1.contains d.name = true := by
    rw [Index.entry_fst, Std.HashMap.contains_iff_mem]
    exact h
  simp [register, hcontains, hindex]

/-- An accepted registration answers the place of the data type, and adds it at the end. -/
theorem register_accepted (h : d.name ∉ Index.bucketOf r.index d.ns) :
    (r.register d).1
        = .after [.registered d.name d.ns d.fields.length] (.ok (UInt32.ofNat r.types.length))
      ∧ (r.register d).2.types = r.types ++ [d]
      ∧ (r.register d).2.index = (Index.entry r.index d.ns).2.insert d.ns
          ((Index.bucketOf r.index d.ns).insert d.name (UInt32.ofNat r.types.length)) := by
  have hnot : ¬ (Index.entry r.index d.ns).1.contains d.name = true := by
    rw [Index.entry_fst, Std.HashMap.contains_iff_mem]
    exact h
  rw [← Index.entry_fst, register, if_neg hnot]
  exact ⟨rfl, rfl, rfl⟩

theorem getElem?_concat_iff {types : List DataType} {d' : DataType} {i : Nat} :
    (types ++ [d])[i]? = some d' ↔ types[i]? = some d' ∨ i = types.length ∧ d = d' := by
  rcases Nat.lt_trichotomy i types.length with h | h | h
  · rw [List.getElem?_append_left h]
    simp [Nat.ne_of_lt h]
  · simp [h]
  · have hout : (types ++ [d]).length ≤ i := by rwa [List.length_append]
    simp [List.getElem?_eq_none hout, List.getElem?_eq_none (Nat.le_of_lt h), Nat.ne_of_gt h]

/-- The places of a key once a data type is there behind all others. -/
theorem place_concat_iff {types : List DataType} {i : Nat} {key : Namespace × String} :
    (∃ d', (types ++ [d])[i]? = some d' ∧ d'.key = key) ↔
      (∃ d', types[i]? = some d' ∧ d'.key = key) ∨ i = types.length ∧ d.key = key := by
  constructor
  · rintro ⟨d', hd', hkey⟩
    rcases getElem?_concat_iff.1 hd' with hd' | ⟨hi, rfl⟩
    · exact Or.inl ⟨d', hd', hkey⟩
    · exact Or.inr ⟨hi, hkey⟩
  · rintro (⟨d', hd', hkey⟩ | ⟨hi, hkey⟩)
    · exact ⟨d', getElem?_concat_iff.2 (Or.inl hd'), hkey⟩
    · exact ⟨d, getElem?_concat_iff.2 (Or.inr ⟨hi, rfl⟩), hkey⟩

/-- The ids after a data type has got a place behind all others. -/
theorem Indexed.ids_insert (h : r.Indexed) (hfew : r.types.length < 2 ^ 32)
    (hfree : d.name ∉ Index.bucketOf r.index d.ns) (ns : Namespace) (name : String) (id : UInt32) :
    (if d.ns = ns then
        (Index.bucketOf r.index d.ns).insert d.name (UInt32.ofNat r.types.length)
      else Index.bucketOf r.index ns)[name]? = some id ↔
      ∃ d', (r.types ++ [d])[id.toNat]? = some d' ∧ d'.key = (ns, name) := by
  rw [place_concat_iff, ← h.ids]
  by_cases hkey : d.key = (ns, name)
  · obtain ⟨rfl, rfl⟩ := Prod.mk.inj hkey
    have hplace : UInt32.ofNat r.types.length = id ↔ id.toNat = r.types.length := by
      rw [← UInt32.toNat_inj, UInt32.toNat_ofNat_of_lt' hfew, eq_comm]
    rw [if_pos rfl, Std.HashMap.getElem?_insert_self, Std.HashMap.getElem?_eq_none hfree,
      Option.some_inj, hplace]
    simp [hkey]
  · have hother : ¬ (id.toNat = r.types.length ∧ d.key = (ns, name)) := fun h => hkey h.2
    split
    · rename_i hns
      have hname : d.name ≠ name := fun hname => hkey (by rw [← hns, ← hname]; rfl)
      rw [Std.HashMap.getElem?_insert, if_neg (by simpa using hname), hns, or_iff_left hother]
    · rw [or_iff_left hother]

/-- **A registration keeps the invariant.** -/
theorem Indexed.register (h : r.Indexed) (hfew : r.types.length < 2 ^ 32) (d : DataType) :
    (r.register d).2.Indexed := by
  by_cases htaken : d.name ∈ Index.bucketOf r.index d.ns
  · rw [register_refused htaken]
    exact h
  · have hkey : d.key ∉ r.types.map DataType.key :=
      fun hm => htaken ((h.mem_bucketOf_iff hfew).2 hm)
    obtain ⟨_, htypes, hindex⟩ := register_accepted htaken
    refine ⟨?_, ?_, ?_, ?_⟩
    · rw [htypes]
      exact Registry.nodup_map_concat h.distinct hkey
    · intro ns
      rw [hindex, Index.mem_insert_entry, h.namespaces, htypes]
      simp [or_comm]
    · intro ns name id
      rw [hindex, htypes, Index.bucketOf_insert_entry]
      exact h.ids_insert hfew htaken ns name id
    · intro ns
      rw [hindex, htypes, Index.bucketOf_insert_entry, List.filter_append, List.length_append,
        ← h.sizes]
      split
      · rename_i hns
        rw [Std.HashMap.size_insert, if_neg htaken, hns]
        simp [hns]
      · rename_i hns
        simp [hns]

/-! ## 3. The registry without its index -/

/-- The registry without its index. -/
def Indexed.toRegistry (h : r.Indexed) : Registry :=
  ⟨r.types, h.distinct⟩

/-- **A registration with an index is accepted or refused as one without.** -/
theorem Indexed.register_agrees (h : r.Indexed) (hfew : r.types.length < 2 ^ 32) (d : DataType) :
    (∀ cause, h.toRegistry.register d = .error cause → r.register d = (.fail cause, r))
      ∧ ∀ plain, h.toRegistry.register d = .ok plain →
        (r.register d).1
            = .after [.registered d.name d.ns d.fields.length] (.ok (UInt32.ofNat r.size))
          ∧ (r.register d).2.types = plain.types := by
  rw [Registry.register]
  split
  · rename_i hkey
    have htaken : d.name ∈ Index.bucketOf r.index d.ns := (h.mem_bucketOf_iff hfew).2 hkey
    constructor
    · intro cause hcause
      rw [← Except.error.inj hcause]
      exact register_refused htaken
    · intro plain hplain
      cases hplain
  · rename_i hkey
    have hfree : d.name ∉ Index.bucketOf r.index d.ns :=
      fun hm => hkey ((h.mem_bucketOf_iff hfew).1 hm)
    constructor
    · intro cause hcause
      cases hcause
    · intro plain hplain
      rw [← Except.ok.inj hplain]
      exact ⟨(register_accepted hfree).1, (register_accepted hfree).2.1⟩

/-- **A lookup by the index finds what a lookup among all data types finds.** -/
theorem Indexed.find_eq (h : r.Indexed) (hfew : r.types.length < 2 ^ 32) (name : String)
    (ns : Namespace) : r.find name ns = h.toRegistry.find name ns := by
  symm
  unfold IndexedRegistry.find
  split
  · rename_i hnone
    have hns : ¬ ∃ d ∈ r.types, d.ns = ns := by
      rw [← h.namespaces, ← Std.HashMap.isSome_getElem?_iff_mem, hnone]
      exact Bool.false_ne_true
    refine Registry.find_eq_error.2 ⟨fun hsome => ?_, (if_neg hns).symm⟩
    obtain ⟨d, hd, hdns, _⟩ := hsome
    exact hns ⟨d, hd, hdns⟩
  · rename_i bucket hbucket
    have hns : ∃ d ∈ r.types, d.ns = ns := by
      rw [← h.namespaces, ← Std.HashMap.isSome_getElem?_iff_mem, hbucket]
      rfl
    split
    · rename_i hnone
      refine Registry.find_eq_error.2 ⟨fun hsome => ?_, (if_pos hns).symm⟩
      obtain ⟨d, hd, rfl, rfl⟩ := hsome
      have hm := (h.mem_bucketOf_iff hfew).2 (List.mem_map.2 ⟨d, hd, rfl⟩)
      rw [Index.bucketOf_eq hbucket, ← Std.HashMap.isSome_getElem?_iff_mem, hnone] at hm
      cases hm
    · rename_i id hid
      rw [← Index.bucketOf_eq hbucket, h.ids] at hid
      obtain ⟨d, hd, hkey⟩ := hid
      obtain ⟨hdns, hname⟩ := Prod.mk.inj hkey
      refine Registry.find_eq_ok.2 ?_
      rw [List.get_eq_getElem, (List.getElem?_eq_some_iff.1 hd).2]
      exact ⟨List.mem_of_getElem? hd, hdns, hname⟩

theorem Indexed.namespaces_eq (h : r.Indexed) : r.namespaces = h.toRegistry.namespaces := by
  refine Namespace.mergeSort_congr Std.HashMap.nodup_keys
    (Namespace.nodup_eraseDups _) fun ns => ?_
  rw [Std.HashMap.mem_keys, h.namespaces]
  simp [toRegistry]

theorem Indexed.countIn_eq (h : r.Indexed) : r.countIn = h.toRegistry.countIn := by
  funext ns
  have hsize : r.countIn ns = (Index.bucketOf r.index ns).size := by
    unfold IndexedRegistry.countIn
    split
    · rename_i hnone
      rw [Index.bucketOf, Std.HashMap.getD_eq_getD_getElem?, hnone]
      rfl
    · rename_i bucket hbucket
      rw [Index.bucketOf_eq hbucket]
  rw [hsize, h.sizes]
  rfl

end Steps

/-! ## 4. Runs -/

/-- Registers data types one after the other; the answers, and the registry in the end. -/
def run (r : IndexedRegistry) :
    List DataType → List (Except SchemaError UInt32) × IndexedRegistry
  | [] => ([], r)
  | d :: rest =>
    (((r.register d).1.result :: ((r.register d).2.run rest).1), ((r.register d).2.run rest).2)

/-- The data types whose registration was accepted, in the order of the calls. -/
def acceptedIn (calls : List DataType) (answers : List (Except SchemaError UInt32)) :
    List DataType :=
  ((calls.zip answers).filter fun call => call.2.isOk).map (·.1)

theorem length_run : ∀ (calls : List DataType) (r : IndexedRegistry),
    (r.run calls).1.length = calls.length
  | [], _ => rfl
  | d :: rest, r => congrArg (· + 1) (length_run rest (r.register d).2)

theorem run_append : ∀ (before after : List DataType) (r : IndexedRegistry),
    r.run (before ++ after) = ((r.run before).1 ++ ((r.run before).2.run after).1,
      ((r.run before).2.run after).2)
  | [], _, _ => rfl
  | d :: rest, after, r => by
      rw [List.cons_append, run, run_append rest after]
      rfl

/-- The data types of a registry are those that were accepted. -/
theorem run_types : ∀ (calls : List DataType) (r : IndexedRegistry),
    (r.run calls).2.types = r.types ++ acceptedIn calls (r.run calls).1
  | [], r => (List.append_nil r.types).symm
  | d :: rest, r => by
      rw [run, run_types rest]
      by_cases htaken : d.name ∈ Index.bucketOf r.index d.ns
      · rw [register_refused htaken]
        rfl
      · obtain ⟨hanswer, htypes, _⟩ := register_accepted htaken
        rw [htypes, hanswer, List.append_assoc]
        rfl

theorem length_acceptedIn_le (calls : List DataType)
    (answers : List (Except SchemaError UInt32)) :
    (acceptedIn calls answers).length ≤ calls.length := by
  rw [acceptedIn, List.length_map]
  exact (List.length_filter_le _ _).trans (List.length_zip.trans_le (Nat.min_le_left _ _))

/-- The answers to a sequence of registrations, beginning with an empty registry. -/
def answersOf (calls : List DataType) : List (Except SchemaError UInt32) :=
  (empty.run calls).1

/-- The registry that a sequence of registrations builds. -/
def registryOf (calls : List DataType) : IndexedRegistry :=
  (empty.run calls).2

/-- The data types accepted in a sequence of registrations. -/
def acceptedOf (calls : List DataType) : List DataType :=
  acceptedIn calls (answersOf calls)

theorem types_registryOf (calls : List DataType) : (registryOf calls).types = acceptedOf calls :=
  run_types calls empty

theorem registryOf_concat (calls : List DataType) (d : DataType) :
    registryOf (calls ++ [d]) = ((registryOf calls).register d).2 := by
  rw [registryOf, run_append]
  rfl

theorem length_types_lt {calls : List DataType} (hfew : calls.length < 2 ^ 32) :
    (registryOf calls).types.length < 2 ^ 32 := by
  rw [types_registryOf]
  exact (length_acceptedIn_le calls (answersOf calls)).trans_lt hfew

/-- **A run keeps the invariant** as long as the ids have room. -/
theorem indexed_registryOf {calls : List DataType} (hfew : calls.length < 2 ^ 32) :
    (registryOf calls).Indexed := by
  induction calls using List.reverseRecOn with
  | nil => exact indexed_empty
  | append_singleton calls d ih =>
    rw [List.length_append] at hfew
    have hbefore : calls.length < 2 ^ 32 := Nat.lt_of_add_right_lt hfew
    rw [registryOf_concat]
    exact (ih hbefore).register (length_types_lt hbefore) d

/-- The registration of a data type behind others has an answer. -/
structure Answered (calls before : List DataType) (d : DataType)
    (answer : Except SchemaError UInt32) : Prop where
  place : ∃ after, calls = before ++ d :: after
  answer : (answersOf calls)[before.length]? = some answer

section Answers

variable {calls before : List DataType} {d : DataType} {answer : Except SchemaError UInt32}

theorem answersOf_split (before : List DataType) (d : DataType) (after : List DataType) :
    (answersOf (before ++ d :: after))[before.length]?
      = some ((registryOf before).register d).1.result := by
  rw [answersOf, run_append, ← length_run before empty, List.getElem?_append_right (le_refl _),
    Nat.sub_self]
  rfl

theorem Answered.eq (h : Answered calls before d answer) :
    answer = ((registryOf before).register d).1.result := by
  obtain ⟨after, rfl⟩ := h.place
  exact Option.some.inj (h.answer.symm.trans (answersOf_split before d after))

theorem Answered.length_before (h : Answered calls before d answer) (hfew : calls.length < 2 ^ 32) :
    before.length < 2 ^ 32 := by
  obtain ⟨after, rfl⟩ := h.place
  rw [List.length_append] at hfew
  omega

/-- A name is in its bucket exactly if it was accepted. -/
theorem mem_bucketOf_registryOf (hfew : before.length < 2 ^ 32) :
    d.name ∈ Index.bucketOf (registryOf before).index d.ns ↔
      ∃ d' ∈ acceptedOf before, d'.ns = d.ns ∧ d'.name = d.name := by
  rw [(indexed_registryOf hfew).mem_bucketOf_iff (length_types_lt hfew), types_registryOf,
    List.mem_map]
  simp [DataType.key]

theorem Answered.refused_iff (h : Answered calls before d answer) (hfew : calls.length < 2 ^ 32) :
    (∃ cause, answer = .error cause) ↔
      ∃ d' ∈ acceptedOf before, d'.ns = d.ns ∧ d'.name = d.name := by
  rw [← mem_bucketOf_registryOf (h.length_before hfew), h.eq]
  by_cases htaken : d.name ∈ Index.bucketOf (registryOf before).index d.ns
  · rw [register_refused htaken]
    exact ⟨fun _ => htaken, fun _ => ⟨_, rfl⟩⟩
  · rw [(register_accepted htaken).1]
    exact ⟨(fun ⟨_, hcause⟩ => nomatch hcause), fun h => absurd h htaken⟩

theorem Answered.refused {cause : SchemaError} (h : Answered calls before d (.error cause)) :
    cause = .duplicateDataType d.name d.ns
      ∧ (registryOf before).register d = (.fail cause, registryOf before) := by
  have heq := h.eq
  by_cases htaken : d.name ∈ Index.bucketOf (registryOf before).index d.ns
  · rw [register_refused htaken] at heq
    obtain rfl := Except.error.inj heq
    exact ⟨rfl, register_refused htaken⟩
  · rw [(register_accepted htaken).1] at heq
    cases heq

theorem Answered.accepted {id : UInt32} (h : Answered calls before d (.ok id))
    (hfew : calls.length < 2 ^ 32) :
    id.toNat = (acceptedOf before).length ∧ (registryOf calls).get? id = some d := by
  have heq := h.eq
  have hlt := length_types_lt (h.length_before hfew)
  obtain ⟨after, hsplit⟩ := h.place
  by_cases htaken : d.name ∈ Index.bucketOf (registryOf before).index d.ns
  · rw [register_refused htaken] at heq
    cases heq
  · obtain ⟨hanswer, htypes, _⟩ := register_accepted htaken
    have hid : id.toNat = (registryOf before).types.length := by
      rw [hanswer] at heq
      rw [Except.ok.inj heq, UInt32.toNat_ofNat_of_lt' hlt]
    have hlater : ∃ later,
        (registryOf calls).types = (registryOf before).types ++ [d] ++ later := by
      rw [hsplit, List.append_cons, registryOf, run_append, ← htypes, ← registryOf_concat]
      exact ⟨_, run_types after _⟩
    obtain ⟨later, hlater⟩ := hlater
    refine ⟨by rw [hid, types_registryOf], ?_⟩
    rw [get?, hlater, hid, List.append_assoc, List.getElem?_append_right (le_refl _), Nat.sub_self]
    rfl

end Answers

/-- What a sequence of registrations answers, and what its registry says afterwards. -/
structure RunSpec (calls : List DataType) : Prop where
  answered : ∀ before d after, calls = before ++ d :: after →
    ∃ answer, Answered calls before d answer
  /-- A call is refused exactly if its name was accepted before in its namespace. -/
  refused_iff : ∀ before d answer, Answered calls before d answer →
    ((∃ cause, answer = .error cause) ↔ ∃ d' ∈ acceptedOf before, d'.ns = d.ns ∧ d'.name = d.name)
  /-- A refused call changes nothing. -/
  refused : ∀ before d cause, Answered calls before d (.error cause) →
    cause = .duplicateDataType d.name d.ns
      ∧ (registryOf before).register d = (.fail cause, registryOf before)
  /-- The ids count the accepted calls. -/
  accepted : ∀ before d id, Answered calls before d (.ok id) →
    id.toNat = (acceptedOf before).length ∧ (registryOf calls).get? id = some d
  get : ∀ id, (registryOf calls).get? id = (acceptedOf calls)[id.toNat]?
  found : ∀ name ns d, (registryOf calls).find name ns = .ok d ↔
    d ∈ acceptedOf calls ∧ d.ns = ns ∧ d.name = name
  unknownNamespace : ∀ name ns,
    (registryOf calls).find name ns = .error (.unknownNamespace ns) ↔
      ¬ ∃ d ∈ acceptedOf calls, d.ns = ns
  unknownDataType : ∀ name ns,
    (registryOf calls).find name ns = .error (.unknownDataType ns name) ↔
      (∃ d ∈ acceptedOf calls, d.ns = ns)
        ∧ ¬ ∃ d ∈ acceptedOf calls, d.ns = ns ∧ d.name = name
  increasing : (registryOf calls).namespaces.Pairwise fun a b => a.segments < b.segments
  mem_namespaces : ∀ ns, ns ∈ (registryOf calls).namespaces ↔ ∃ d ∈ acceptedOf calls, d.ns = ns
  countIn : ∀ ns, (registryOf calls).countIn ns = ((acceptedOf calls).filter (·.ns = ns)).length
  size : (registryOf calls).size = (acceptedOf calls).length
  sum_countIn : ((registryOf calls).namespaces.map (registryOf calls).countIn).foldr (· + ·) 0
    = (registryOf calls).size

/-- **Fewer than 2³² registrations of any data types are answered and looked up as they should be:**
the list of data types and the index stay in step however accepted and refused calls follow one
another. -/
theorem run_spec (calls : List DataType) (hfew : calls.length < 2 ^ 32) : RunSpec calls := by
  have h : (registryOf calls).Indexed := indexed_registryOf hfew
  have htypes : h.toRegistry.types = acceptedOf calls := types_registryOf calls
  have hfind : (registryOf calls).find = h.toRegistry.find :=
    funext fun name => funext fun ns => h.find_eq (length_types_lt hfew) name ns
  refine
    { answered := ?_
      refused_iff := fun before d answer hanswered => hanswered.refused_iff hfew
      refused := fun before d cause hanswered => hanswered.refused
      accepted := fun before d id hanswered => hanswered.accepted hfew
      get := fun id => by rw [get?, types_registryOf]
      found := fun name ns d => by rw [hfind, Registry.find_eq_ok, htypes]
      unknownNamespace := fun name ns => by rw [hfind, Registry.find_eq_unknownNamespace, htypes]
      unknownDataType := fun name ns => by rw [hfind, Registry.find_eq_unknownDataType, htypes]
      increasing := ?_
      mem_namespaces := fun ns => by rw [h.namespaces_eq, Registry.mem_namespaces, htypes]
      countIn := ?_
      size := by rw [size, types_registryOf]
      sum_countIn := ?_ }
  · rintro before d after rfl
    exact ⟨_, ⟨after, rfl⟩, answersOf_split before d after⟩
  · rw [h.namespaces_eq]
    exact h.toRegistry.namespaces_increasing
  · intro ns
    rw [h.countIn_eq, Registry.countIn, Registry.inNamespace, htypes]
    rfl
  · rw [h.namespaces_eq, h.countIn_eq]
    exact h.toRegistry.sum_countIn

/-- A data type that is declared in several namespaces. -/
def radical (ns : Namespace) : DataType where
  name := "Radical"
  ns := ns
  fields := [⟨"radical_id", "radical", "radicalID", "radicalID", true, true⟩]
  primaryKey := ⟨"radical_id", "radical", "radicalID", "radicalID", true, true⟩
  includes := ["radical"]

theorem run_spec_radicals :
    [radical .root, radical .root, radical ⟨["kanji"]⟩].length < 2 ^ 32
      ∧ RunSpec [radical .root, radical .root, radical ⟨["kanji"]⟩]
      ∧ answersOf [radical .root, radical .root, radical ⟨["kanji"]⟩]
        = [.ok 0, .error (.duplicateDataType "Radical" .root), .ok 1] := by
  refine ⟨by decide, run_spec _ (by decide), ?_⟩
  simp [answersOf, run, register, empty, Index.entry, radical, Logged.fail, Logged.after,
    Logged.ok, Namespace.root]

end IndexedRegistry

end MasterSchema
