import Mathlib.Data.List.Forall2
import Mathlib.Data.List.Induction
import Mathlib.Data.List.Nodup
import MasterSchema.DataType.Indexed
import MasterSchema.Proofs.DataType.CodeNames

/-!
# Which data types are accepted

A data type is made of a name, a namespace and fields with their tokens.

* `Fit` says which of them are accepted, and `FirstFault` for what the others are refused; every
  making is the one or the other (`fit_or_firstFault`).
* Taking accessors into a map is checking each against all fields before it
  (`takeAccessors_eq`), and the place of the key is found as the key itself is (`onlyKeyIndex_cases`).
* `make_spec` says all of it of the data type with its key and of the one with the key's place.
-/

namespace MasterSchema

namespace DataType

variable {rules : Rules} {name : String} {ns : Namespace} {fields : List (String × String)}
  {resolved : List ResolvedField}

/-! ## 1. Fields are resolved -/

/-- Every field is resolved, in the given order. -/
def Resolves (rules : Rules) (fields : List (String × String)) (resolved : List ResolvedField) :
    Prop :=
  List.Forall₂ (fun entry field => ResolvedField.resolve rules entry.1 entry.2 = .ok field)
    fields resolved

theorem resolveAll_of_resolves (h : Resolves rules fields resolved) :
    resolveAll rules fields = .ok resolved := by
  induction h with
  | nil => rfl
  | cons hfield _ ih =>
    unfold resolveAll
    simp only [hfield, ih]

theorem resolveAll_of_unresolved {before after : List (String × String)} {entry : String × String}
    {e : SchemaError} (h : Resolves rules before resolved)
    (hentry : ResolvedField.resolve rules entry.1 entry.2 = .error e) :
    resolveAll rules (before ++ entry :: after) = .error e := by
  induction h with
  | nil =>
    unfold resolveAll
    simp only [List.nil_append, hentry]
  | cons hfield _ ih =>
    unfold resolveAll
    simp only [List.cons_append, hfield, ih]

/-- All fields are resolved, or there is a first that is not. -/
theorem resolves_or_unresolved (rules : Rules) : ∀ fields : List (String × String),
    (∃ resolved, Resolves rules fields resolved) ∨
      ∃ before entry after resolved e, fields = before ++ entry :: after
        ∧ Resolves rules before resolved
        ∧ ResolvedField.resolve rules entry.1 entry.2 = .error e
  | [] => Or.inl ⟨[], .nil⟩
  | entry :: rest => by
      cases hentry : ResolvedField.resolve rules entry.1 entry.2 with
      | error e => exact Or.inr ⟨[], entry, rest, [], e, rfl, .nil, hentry⟩
      | ok field =>
        rcases resolves_or_unresolved rules rest with ⟨others, hrest⟩ | hfirst
        · exact Or.inl ⟨field :: others, .cons hentry hrest⟩
        · obtain ⟨before, other, after, others, e, rfl, hbefore, hother⟩ := hfirst
          exact Or.inr ⟨entry :: before, other, after, field :: others, e, rfl,
            .cons hentry hbefore, hother⟩

/-! ## 2. Accessors are free -/

section Find

variable {α : Type} {f : α → String} {front back : List α} {x : α}

theorem find?_front (h : ((front ++ x :: back).map f).Nodup) :
    front.find? (fun other => f other == f x) = none := by
  rw [List.map_append, List.nodup_append] at h
  refine List.find?_eq_none.2 fun other ho => ?_
  simpa using h.2.2 _ (List.mem_map_of_mem ho) _ List.mem_cons_self

/-- Where no two members share a name, a member is found by its name. -/
theorem find?_of_nodup (h : ((front ++ x :: back).map f).Nodup) :
    (front ++ x :: back).find? (fun other => f other == f x) = some x := by
  rw [List.find?_append, find?_front h, Option.none_or, List.find?_cons_of_pos (by simp)]

end Find

/-- Every field has an accessor of its own, a name for code. -/
structure Free (fields : List ResolvedField) : Prop where
  names : ∀ field ∈ fields, CodeName field.accessorName
  distinct : (fields.map (·.accessorName)).Nodup

theorem free_nil : Free [] := ⟨by simp, by simp⟩

theorem free_concat {before : List ResolvedField} {field : ResolvedField} :
    Free (before ++ [field]) ↔ Free before ∧ CodeName field.accessorName
      ∧ ∀ other ∈ before, other.accessorName ≠ field.accessorName := by
  constructor
  · intro h
    have hdistinct := h.distinct
    rw [List.map_append, List.nodup_append] at hdistinct
    refine ⟨⟨fun other ho => h.names other (List.mem_append_left _ ho), hdistinct.1⟩,
      h.names field (List.mem_append_right _ List.mem_cons_self), fun other ho => ?_⟩
    exact hdistinct.2.2 _ (List.mem_map_of_mem ho) _ List.mem_cons_self
  · rintro ⟨hbefore, hname, hapart⟩
    refine ⟨List.forall_mem_append.2 ⟨hbefore.names, by simpa using hname⟩, ?_⟩
    rw [List.map_append, List.nodup_append]
    refine ⟨hbefore.distinct, by simp, ?_⟩
    simpa using hapart

theorem checkName_of_codeName {place : NamePlace} {name : String} (h : CodeName name) :
    checkName place name = .ok () := by
  rw [checkName, codeName_iff.1 h]

/-- **Free accessors are passed over**, and the fields are taken to those before. -/
theorem checkAccessors_append : ∀ (fields earlier : List ResolvedField),
    Free (earlier ++ fields) → ∀ rest, checkAccessors name ns earlier (fields ++ rest)
      = checkAccessors name ns (earlier ++ fields) rest
  | [], earlier, _, rest => by rw [List.nil_append, List.append_nil]
  | field :: fields, earlier, h, rest => by
      have hfield : CodeName field.accessorName :=
        h.names field (List.mem_append_right _ List.mem_cons_self)
      have hnew : earlier.find? (fun other => other.accessorName == field.accessorName) = none :=
        find?_front h.distinct
      rw [List.append_cons] at h ⊢
      rw [List.cons_append]
      conv_lhs => unfold checkAccessors
      simp only [checkName_of_codeName hfield, hnew]
      exact checkAccessors_append fields (earlier ++ [field]) h rest

/-- The first accessor that is not free: it is no name for code, or it is that of an earlier
field. -/
inductive Taken (name : String) (ns : Namespace) (fields : List ResolvedField) :
    SchemaError → Prop where
  | badName {before after : List ResolvedField} {field : ResolvedField} {fault : NameFault} :
      fields = before ++ field :: after → Free before →
      nameFault? field.accessorName = some fault →
      Taken name ns fields (.inDataType name ns
        (.badName (.accessor field.name) field.accessorName fault))
  | collision {before between after : List ResolvedField} {first field : ResolvedField} :
      fields = (before ++ first :: between) ++ field :: after →
      Free (before ++ first :: between) → CodeName field.accessorName →
      first.accessorName = field.accessorName →
      Taken name ns fields
        (.accessorCollision name ns field.accessorName first.name field.name)

theorem checkAccessors_of_free (h : Free resolved) : checkAccessors name ns [] resolved = .ok () := by
  rw [← List.append_nil resolved, checkAccessors_append resolved [] h]
  rfl

theorem checkAccessors_of_taken {e : SchemaError} (h : Taken name ns resolved e) :
    checkAccessors name ns [] resolved = .error e := by
  cases h with
  | @badName before _ _ _ hsplit hfree hfault =>
    rw [hsplit, checkAccessors_append before [] hfree]
    unfold checkAccessors
    simp only [checkName, hfault]
  | @collision before between _ first _ hsplit hfree hname hsame =>
    rw [hsplit, checkAccessors_append (before ++ first :: between) [] hfree]
    rw [← hsame] at hname ⊢
    unfold checkAccessors
    simp only [← hsame, checkName_of_codeName hname, List.nil_append,
      find?_of_nodup hfree.distinct]

theorem free_or_taken (name : String) (ns : Namespace) (resolved : List ResolvedField) :
    Free resolved ∨ ∃ e, Taken name ns resolved e := by
  induction resolved using List.reverseRecOn with
  | nil => exact Or.inl free_nil
  | append_singleton before field ih =>
    rcases ih with hfree | ⟨e, htaken⟩
    · cases hfault : nameFault? field.accessorName with
      | some fault => exact Or.inr ⟨_, .badName rfl hfree hfault⟩
      | none =>
        have hname := codeName_iff.2 hfault
        by_cases hsome : ∃ first ∈ before, first.accessorName = field.accessorName
        · obtain ⟨first, hfirst, hsame⟩ := hsome
          obtain ⟨front, back, rfl⟩ := List.append_of_mem hfirst
          exact Or.inr ⟨_, .collision rfl hfree hname hsame⟩
        · refine Or.inl (free_concat.2 ⟨hfree, hname, fun other ho hsame => ?_⟩)
          exact hsome ⟨other, ho, hsame⟩
    · refine Or.inr ⟨e, ?_⟩
      cases htaken with
      | badName hsplit hfree hfault =>
        rw [hsplit, List.append_assoc]
        exact .badName rfl hfree hfault
      | collision hsplit hfree hname hsame =>
        rw [hsplit, List.append_assoc]
        exact .collision rfl hfree hname hsame

/-! ## 3. Data types -/

/-- What is accepted: a name for code, fields that are resolved with free accessors, and one primary
key among them. -/
structure Fit (rules : Rules) (name : String) (fields : List (String × String))
    (resolved : List ResolvedField) : Prop where
  name : CodeName name
  fields : Resolves rules fields resolved
  accessors : Free resolved
  key : resolved.countP (·.isPrimaryKey) = 1

/-- The error of the first fault: of the name, of the first field that is not resolved, of the first
accessor that is not free, of the primary keys. -/
inductive FirstFault (rules : Rules) (name : String) (ns : Namespace)
    (fields : List (String × String)) : SchemaError → Prop where
  | badName {fault : NameFault} : nameFault? name = some fault →
      FirstFault rules name ns fields (.badName .dataType name fault)
  | unresolved {before after : List (String × String)} {entry : String × String}
      {resolved : List ResolvedField} {e : SchemaError} :
      CodeName name → fields = before ++ entry :: after → Resolves rules before resolved →
      ResolvedField.resolve rules entry.1 entry.2 = .error e →
      FirstFault rules name ns fields (.inDataType name ns e)
  | taken {resolved : List ResolvedField} {e : SchemaError} :
      CodeName name → Resolves rules fields resolved → Taken name ns resolved e →
      FirstFault rules name ns fields e
  | noKey {resolved : List ResolvedField} :
      CodeName name → Resolves rules fields resolved → Free resolved →
      resolved.countP (·.isPrimaryKey) = 0 →
      FirstFault rules name ns fields (.missingPrimaryKey name ns)
  | severalKeys {resolved : List ResolvedField} :
      CodeName name → Resolves rules fields resolved → Free resolved →
      1 < resolved.countP (·.isPrimaryKey) →
      FirstFault rules name ns fields (.multiplePrimaryKeys name ns
        ((resolved.filter (·.isPrimaryKey)).map (·.name)))

theorem exists_key_of_countP (h : resolved.countP (·.isPrimaryKey) = 1) :
    ∃ key, resolved.filter (·.isPrimaryKey) = [key] := by
  rw [List.countP_eq_length_filter] at h
  exact List.length_eq_one_iff.1 h

theorem onlyPrimaryKey_of_none (h : resolved.countP (·.isPrimaryKey) = 0) :
    onlyPrimaryKey name ns resolved = .error (.missingPrimaryKey name ns) := by
  rw [List.countP_eq_length_filter, List.length_eq_zero_iff] at h
  rw [onlyPrimaryKey, h]

theorem onlyPrimaryKey_of_several (h : 1 < resolved.countP (·.isPrimaryKey)) :
    onlyPrimaryKey name ns resolved = .error (.multiplePrimaryKeys name ns
      ((resolved.filter (·.isPrimaryKey)).map (·.name))) := by
  rw [List.countP_eq_length_filter] at h
  rw [onlyPrimaryKey]
  split
  · rename_i hkeys
    simp [hkeys] at h
  · rename_i hkeys
    simp [hkeys] at h
  · rfl

theorem make_of_fit (ns : Namespace) (h : Fit rules name fields resolved) :
    ∃ key, resolved.filter (·.isPrimaryKey) = [key]
      ∧ make rules name ns fields = .ok ⟨name, ns, resolved, key, includesOf rules resolved⟩ := by
  obtain ⟨key, hkey⟩ := exists_key_of_countP h.key
  have honly : onlyPrimaryKey name ns resolved = .ok key := by rw [onlyPrimaryKey, hkey]
  refine ⟨key, hkey, ?_⟩
  rw [make, checkName_of_codeName h.name]
  simp only [resolveAll_of_resolves h.fields, checkAccessors_of_free h.accessors, honly]

theorem make_of_firstFault {e : SchemaError} (h : FirstFault rules name ns fields e) :
    make rules name ns fields = .error e := by
  cases h with
  | badName hfault => rw [make, checkName, hfault]
  | unresolved hname hsplit hbefore hentry =>
    rw [make, checkName_of_codeName hname, hsplit]
    simp only [resolveAll_of_unresolved hbefore hentry]
  | taken hname hfields htaken =>
    rw [make, checkName_of_codeName hname]
    simp only [resolveAll_of_resolves hfields, checkAccessors_of_taken htaken]
  | noKey hname hfields hfree hnone =>
    rw [make, checkName_of_codeName hname]
    simp only [resolveAll_of_resolves hfields, checkAccessors_of_free hfree,
      onlyPrimaryKey_of_none hnone]
  | severalKeys hname hfields hfree hseveral =>
    rw [make, checkName_of_codeName hname]
    simp only [resolveAll_of_resolves hfields, checkAccessors_of_free hfree,
      onlyPrimaryKey_of_several hseveral]

/-- What a data type is made of is fit or has a first fault. -/
theorem fit_or_firstFault (rules : Rules) (name : String) (ns : Namespace)
    (fields : List (String × String)) :
    (∃ resolved, Fit rules name fields resolved) ∨ ∃ e, FirstFault rules name ns fields e := by
  cases hfault : nameFault? name with
  | some fault => exact Or.inr ⟨_, .badName hfault⟩
  | none =>
    have hname := codeName_iff.2 hfault
    rcases resolves_or_unresolved rules fields with ⟨resolved, hfields⟩ | hfirst
    · rcases free_or_taken name ns resolved with hfree | ⟨e, htaken⟩
      · rcases Nat.lt_trichotomy (resolved.countP (·.isPrimaryKey)) 1 with hnone | hone | hseveral
        · exact Or.inr ⟨_, .noKey hname hfields hfree (Nat.lt_one_iff.1 hnone)⟩
        · exact Or.inl ⟨resolved, hname, hfields, hfree, hone⟩
        · exact Or.inr ⟨_, .severalKeys hname hfields hfree hseveral⟩
      · exact Or.inr ⟨e, .taken hname hfields htaken⟩
    · obtain ⟨before, entry, after, resolved, e, hsplit, hbefore, hentry⟩ := hfirst
      exact Or.inr ⟨_, .unresolved hname hsplit hbefore hentry⟩

/-- **A data type is made of what is fit, and of nothing else.** -/
theorem make_eq_ok_iff {d : DataType} : make rules name ns fields = .ok d ↔
    Fit rules name fields d.fields ∧ d.fields.filter (·.isPrimaryKey) = [d.primaryKey]
      ∧ d.name = name ∧ d.ns = ns ∧ d.includes = includesOf rules d.fields := by
  constructor
  · intro h
    rcases fit_or_firstFault rules name ns fields with ⟨resolved, hfit⟩ | ⟨e, he⟩
    · obtain ⟨key, hkey, hmake⟩ := make_of_fit ns hfit
      rw [← Except.ok.inj (hmake.symm.trans h)]
      exact ⟨hfit, hkey, rfl, rfl, rfl⟩
    · cases h.symm.trans (make_of_firstFault he)
  · rintro ⟨hfit, hkey, rfl, rfl, hincludes⟩
    obtain ⟨key, hkey', hmake⟩ := make_of_fit d.ns hfit
    obtain rfl : d.primaryKey = key := by simpa [hkey] using hkey'
    rw [hmake, ← hincludes]

/-- **What is refused is refused for its first fault.** -/
theorem make_eq_error {e : SchemaError} :
    make rules name ns fields = .error e ↔ FirstFault rules name ns fields e := by
  constructor
  · intro h
    rcases fit_or_firstFault rules name ns fields with ⟨resolved, hfit⟩ | ⟨cause, hcause⟩
    · obtain ⟨key, _, hmake⟩ := make_of_fit ns hfit
      cases h.symm.trans hmake
    · rwa [Except.error.inj (h.symm.trans (make_of_firstFault hcause))]
  · exact make_of_firstFault

/-! ## 4. Lookup -/

theorem field?_eq_some {d : DataType} (h : (d.fields.map (·.name)).Nodup) {x : String}
    {field : ResolvedField} : d.field? x = some field ↔ field ∈ d.fields ∧ field.name = x := by
  constructor
  · intro hfound
    have hname := List.find?_some hfound
    exact ⟨List.mem_of_find?_eq_some hfound, by simpa using hname⟩
  · rintro ⟨hm, rfl⟩
    obtain ⟨front, back, hsplit⟩ := List.append_of_mem hm
    rw [hsplit] at h
    rw [field?, hsplit, find?_of_nodup h]

theorem field?_eq_none {d : DataType} {x : String} :
    d.field? x = none ↔ ∀ field ∈ d.fields, field.name ≠ x := by
  simp [field?]

end DataType

/-! ## 5. Accessors in a map, the key by its place -/

namespace IndexedDataType

open DataType

variable {rules : Rules} {name : String} {ns : Namespace} {fields : List (String × String)}
  {resolved : List ResolvedField}

/-- A map holds the accessors of the earlier fields, with the first field of each. -/
def Holds (taken : Accessors) (earlier : List ResolvedField) : Prop :=
  ∀ accessor, taken[accessor]?
    = (earlier.find? fun other => other.accessorName == accessor).map (·.name)

theorem holds_nil : Holds ∅ [] := by
  intro accessor
  rw [Std.HashMap.getElem?_empty]
  rfl

/-- A free accessor is held behind the earlier ones. -/
theorem Holds.insert {taken : Accessors} {earlier : List ResolvedField} (h : Holds taken earlier)
    {field : ResolvedField} (hfree : taken[field.accessorName]? = none) :
    Holds (taken.insert field.accessorName field.name) (earlier ++ [field]) := by
  intro accessor
  rw [Std.HashMap.getElem?_insert, List.find?_append, Option.map_or, ← h accessor]
  split
  · rename_i hsame
    rw [← eq_of_beq hsame, hfree]
    simp
  · rename_i hother
    have hnone : [field].find? (fun other => other.accessorName == accessor) = none := by
      simpa using hother
    rw [hnone, Option.map_none, Option.or_none]

/-- **A map of accessors does what the list of earlier fields does.** -/
theorem takeAccessors_eq : ∀ {fields earlier : List ResolvedField} {taken : Accessors},
    Holds taken earlier → takeAccessors name ns taken fields = checkAccessors name ns earlier fields
  | [], _, _, _ => rfl
  | field :: rest, earlier, taken, h => by
      have hfield := h field.accessorName
      unfold takeAccessors checkAccessors
      cases checkName (.accessor field.name) field.accessorName with
      | error e => rfl
      | ok _ =>
        cases hfind : earlier.find? (fun other => other.accessorName == field.accessorName) with
        | some first =>
          rw [hfind, Option.map_some] at hfield
          simp only [hfield]
        | none =>
          rw [hfind, Option.map_none] at hfield
          simp only [hfield]
          exact takeAccessors_eq (h.insert hfield)

/-- The places of the primary keys are the places of the fields that are primary keys. -/
theorem keyIndices_spec (resolved : List ResolvedField) :
    List.Forall₂ (fun place field => resolved[place]? = some field) (keyIndices resolved)
      (resolved.filter (·.isPrimaryKey)) := by
  have hkeys : (resolved.zipIdx.filter fun entry => entry.1.isPrimaryKey).map (·.1)
      = resolved.filter (·.isPrimaryKey) :=
    calc (resolved.zipIdx.filter fun entry => entry.1.isPrimaryKey).map (·.1)
        = (resolved.zipIdx.map (·.1)).filter (·.isPrimaryKey) := List.filter_map.symm
      _ = resolved.filter (·.isPrimaryKey) := by rw [List.zipIdx_map_fst]
  rw [keyIndices, ← hkeys, List.forall₂_map_left_iff, List.forall₂_map_right_iff,
    List.forall₂_same]
  intro entry hentry
  exact List.mem_zipIdx_iff_getElem?.1 (List.mem_of_mem_filter hentry)

/-- Places of fields give the fields' names. -/
theorem names_of_places {places : List Nat} {keys : List ResolvedField}
    (h : List.Forall₂ (fun place field => resolved[place]? = some field) places keys) :
    places.filterMap (fun place => resolved[place]?.map (·.name)) = keys.map (·.name) := by
  induction h with
  | nil => rfl
  | cons hkey _ ih => rw [List.filterMap_cons_some (by rw [hkey]; rfl), ih, List.map_cons]

/-- **The place of the key is found as the key itself is.** -/
theorem onlyKeyIndex_cases (name : String) (ns : Namespace) (resolved : List ResolvedField) :
    (∃ place key, resolved[place]? = some key ∧ onlyKeyIndex name ns resolved = .ok place
        ∧ onlyPrimaryKey name ns resolved = .ok key)
      ∨ ∃ e, onlyKeyIndex name ns resolved = .error e
        ∧ onlyPrimaryKey name ns resolved = .error e := by
  have hspec := keyIndices_spec resolved
  have hnames := names_of_places hspec
  unfold onlyKeyIndex onlyPrimaryKey
  generalize keyIndices resolved = places at hspec hnames
  generalize resolved.filter (·.isPrimaryKey) = keys at hspec hnames
  cases hspec with
  | nil => exact Or.inr ⟨_, rfl, rfl⟩
  | cons hkey hrest =>
    cases hrest with
    | nil => exact Or.inl ⟨_, _, hkey, rfl, rfl⟩
    | cons _ _ => exact Or.inr ⟨_, rfl, congrArg _ (congrArg _ hnames.symm)⟩

/-- An indexed data type stands for a data type: the field at its key's place is the key. -/
structure StandsFor (d : IndexedDataType) (plain : DataType) : Prop where
  inRange : d.keyIndex < d.fields.length
  key : d.primaryKey? = some plain.primaryKey
  plain : d.toDataType? = some plain

/-- **The place of the key and the map of accessors change nothing:** a data type is made with them
exactly if it is made without, and it is refused for the same error. -/
theorem make_cases (rules : Rules) (name : String) (ns : Namespace)
    (fields : List (String × String)) :
    (∃ d plain, make rules name ns fields = .ok d ∧ DataType.make rules name ns fields = .ok plain
        ∧ d.StandsFor plain)
      ∨ ∃ e, make rules name ns fields = .error e ∧ DataType.make rules name ns fields = .error e := by
  unfold make DataType.make
  cases checkName .dataType name with
  | error e => exact Or.inr ⟨e, rfl, rfl⟩
  | ok _ =>
    cases resolveAll rules fields with
    | error e => exact Or.inr ⟨_, rfl, rfl⟩
    | ok resolved =>
      simp only [takeAccessors_eq holds_nil]
      cases checkAccessors name ns [] resolved with
      | error e => exact Or.inr ⟨e, rfl, rfl⟩
      | ok _ =>
        rcases onlyKeyIndex_cases name ns resolved with
          ⟨place, key, hplace, hindex, hkey⟩ | ⟨e, hindex, hkey⟩
        · simp only [hindex, hkey]
          refine Or.inl ⟨_, _, rfl, rfl, (List.getElem?_eq_some_iff.1 hplace).1, hplace, ?_⟩
          simp only [toDataType?, primaryKey?, hplace, Option.map_some]
        · simp only [hindex, hkey]
          exact Or.inr ⟨e, rfl, rfl⟩

end IndexedDataType

/-! ## 6. All of it -/

namespace DataType

/-- What an accepted data type is like. -/
structure Made (rules : Rules) (name : String) (ns : Namespace) (fields : List (String × String))
    (d : DataType) : Prop where
  name_eq : d.name = name
  ns_eq : d.ns = ns
  /-- The fields are the given ones, in the given order. -/
  resolves : Resolves rules fields d.fields
  distinct : (d.fields.map (·.name)).Nodup
  /-- The key is the one field that is tagged as such. -/
  key : ∀ field, field ∈ d.fields ∧ field.isPrimaryKey = true ↔ field = d.primaryKey
  found : ∀ x field, d.field? x = some field ↔ field ∈ d.fields ∧ field.name = x
  unfound : ∀ x, d.field? x = none ↔ x ∉ fields.map (·.1)
  /-- Where the key's place is kept, it is the place of the key. -/
  indexed : ∃ indexed, IndexedDataType.make rules name ns fields = .ok indexed
    ∧ indexed.StandsFor d

/-- What becomes of a name, a namespace and fields with their tokens. -/
structure Making (rules : Rules) (name : String) (ns : Namespace)
    (fields : List (String × String)) : Prop where
  accepted_iff : (∃ d, make rules name ns fields = .ok d) ↔
    ∃ resolved, Fit rules name fields resolved
  accepted : ∀ d, make rules name ns fields = .ok d → Made rules name ns fields d
  refused_iff : ∀ e, make rules name ns fields = .error e ↔ FirstFault rules name ns fields e
  indexed_iff : ∀ e, IndexedDataType.make rules name ns fields = .error e ↔
    make rules name ns fields = .error e

theorem made_of_make {rules : Rules} {name : String} {ns : Namespace}
    {fields : List (String × String)} {d : DataType} (h : make rules name ns fields = .ok d) :
    Made rules name ns fields d := by
  obtain ⟨hfit, hkey, hname, hns, _⟩ := make_eq_ok_iff.1 h
  obtain ⟨_, _, _, hnames⟩ := make_accepted h
  have hdistinct := nodup_names_of_make h
  constructor
  case name_eq => exact hname
  case ns_eq => exact hns
  case resolves => exact hfit.fields
  case distinct => exact hdistinct
  case key =>
    intro field
    have hmem : field ∈ d.fields.filter (·.isPrimaryKey) ↔ field = d.primaryKey := by
      rw [hkey, List.mem_singleton]
    rwa [List.mem_filter] at hmem
  case found => exact fun x field => field?_eq_some hdistinct
  case unfound =>
    intro x
    rw [field?_eq_none, ← hnames, List.mem_map]
    simp
  case indexed =>
    rcases IndexedDataType.make_cases rules name ns fields with
      ⟨indexed, plain, hindexed, hplain, hstands⟩ | ⟨e, _, he⟩
    · obtain rfl := Except.ok.inj (hplain.symm.trans h)
      exact ⟨indexed, hindexed, hstands⟩
    · cases he.symm.trans h

/-- **A data type is accepted exactly if its name is one for code, every field is resolved, every
accessor is a name for code and has one field, and one field is a primary key.** Then its fields are
the given ones and its lookups and its key are what they say; otherwise the error is that of the
first fault. -/
theorem make_spec (rules : Rules) (name : String) (ns : Namespace)
    (fields : List (String × String)) : Making rules name ns fields where
  accepted_iff := by
    constructor
    · rintro ⟨d, h⟩
      exact ⟨d.fields, (make_eq_ok_iff.1 h).1⟩
    · rintro ⟨resolved, hfit⟩
      obtain ⟨_, _, h⟩ := make_of_fit ns hfit
      exact ⟨_, h⟩
  accepted _ h := made_of_make h
  refused_iff _ := make_eq_error
  indexed_iff e := by
    rcases IndexedDataType.make_cases rules name ns fields with
      ⟨indexed, plain, hindexed, hplain, _⟩ | ⟨cause, hindexed, hplain⟩
    · rw [hindexed, hplain]
      simp
    · rw [hindexed, hplain]
      simp

/-- Of two faults in one declaration the first in the order of the checks is reported, here the
accessor that two fields share and not that no field is a primary key. -/
example : make {} "Line" .root [("stroke_count", "int"), ("stroke__count", "int")]
    = .error (.accessorCollision "Line" .root "strokeCount" "stroke_count" "stroke__count") := by
  decide +kernel

end DataType

end MasterSchema
