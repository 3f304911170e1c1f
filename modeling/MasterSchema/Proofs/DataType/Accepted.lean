import Mathlib.Data.List.Nodup
import MasterSchema.Proofs.Registry.Names

/-!
# What an accepted data type has

A data type comes about in one way only, by `DataType.make`. What has been checked on the way is
gathered in `Accepted`, and what is known of each of its fields in `ResolvedField.Settled`.

* `resolve_settled` reads a resolved field off its declaration;
* `make_accepted` reads an accepted data type off the four checks.
-/

namespace MasterSchema

/-! ## 1. Fields -/

/-- A resolved field: its name was checked, and its types are the ones the rules settle. -/
structure ResolvedField.Settled (rules : Rules) (field : ResolvedField) : Prop where
  name : nameFault? field.name = none
  /-- An identifier is stored as a type of its domain. -/
  domain : field.isId = true → field.storageType = field.base ++ rules.idSuffix
  /-- Any other field has an allowed base type and is stored as what stands for it. -/
  plain : field.isId = false → field.base ∈ rules.allowedTypes
    ∧ field.storageType = (rules.substitution? field.base).getD field.base
  call : field.callType = field.storageType
    ∨ field.callType = "const " ++ field.storageType ++ "&"

/-- The member of a field with an identifier as name is an identifier too. -/
theorem ResolvedField.isIdentifier_memberName {field : ResolvedField}
    (h : isIdentifier field.name = true) : isIdentifier field.memberName = true :=
  (isIdentifier_append (by decide) (isIdentifierPart_of_mem h)).2 (by decide)

/-- An accepted token that is not tagged as an identifier has an allowed base type. -/
theorem FieldDeclaration.ofParts_spec {rules : Rules} {field token : String}
    {parts : List String} {declaration : FieldDeclaration}
    (h : ofParts rules field token parts = .ok declaration) :
    declaration.name = field
      ∧ (declaration.isId = false → declaration.base ∈ rules.allowedTypes) := by
  unfold ofParts at h
  split at h
  · cases h
  · split at h
    · cases h
    · split at h
      · cases h
      · rename_i tags _
        split at h
        · rename_i hallowed
          obtain rfl := Except.ok.inj h
          refine ⟨rfl, fun hid => ?_⟩
          have hid' : tags.isId = false := hid
          simpa [hid'] using hallowed
        · cases h

theorem ResolvedField.resolve_settled {rules : Rules} {name token : String}
    {field : ResolvedField} (h : resolve rules name token = .ok field) :
    field.name = name ∧ field.Settled rules := by
  unfold resolve FieldDeclaration.read at h
  cases hn : checkName .field name with
  | error e => simp [hn] at h
  | ok _ =>
    cases hd : FieldDeclaration.ofParts rules name token (FieldDeclaration.tokenParts token) with
    | error e => simp [hn, hd] at h
    | ok declaration =>
      obtain ⟨hname, hallowed⟩ := FieldDeclaration.ofParts_spec hd
      simp only [hn, hd, Except.ok.injEq] at h
      subst h
      refine ⟨hname, ?_, fun hid => ?_, fun hid => ⟨hallowed hid, ?_⟩, ?_⟩
      · show nameFault? declaration.name = none
        rw [hname]
        exact checkName_eq_ok hn
      · have hid' : declaration.isId = true := hid
        simp [ofDeclaration, storageOf, hid']
      · have hid' : declaration.isId = false := hid
        simp [ofDeclaration, storageOf, hid']
      · by_cases hheavy : declaration.base ∈ rules.heavyTypes
        · exact Or.inr (by simp [ofDeclaration, hheavy])
        · exact Or.inl (by simp [ofDeclaration, hheavy])

namespace DataType

/-! ## 2. The checks -/

theorem resolveAll_spec {rules : Rules} : ∀ {fields : List (String × String)}
    {resolved : List ResolvedField}, resolveAll rules fields = .ok resolved →
      resolved.map (·.name) = fields.map (·.1)
        ∧ ∀ field ∈ resolved, ∃ name token, ResolvedField.resolve rules name token = .ok field
  | [], _, h => by
      obtain rfl := Except.ok.inj h
      exact ⟨rfl, by simp⟩
  | (name, token) :: rest, _, h => by
      unfold resolveAll at h
      split at h
      · cases h
      · rename_i field hfield
        split at h
        · cases h
        · rename_i others hothers
          obtain rfl := Except.ok.inj h
          obtain ⟨hnames, hall⟩ := resolveAll_spec hothers
          refine ⟨by simp [(ResolvedField.resolve_settled hfield).1, hnames], ?_⟩
          intro other ho
          rcases List.mem_cons.1 ho with rfl | ho
          · exact ⟨name, token, hfield⟩
          · exact hall other ho

theorem checkAccessors_spec {name : String} {ns : Namespace} :
    ∀ {fields earlier : List ResolvedField}, checkAccessors name ns earlier fields = .ok () →
      ∀ field ∈ fields, nameFault? field.accessorName = none
  | [], _, _ => by simp
  | field :: rest, earlier, h => by
      unfold checkAccessors at h
      split at h
      · cases h
      · rename_i hname
        split at h
        · cases h
        · intro other ho
          rcases List.mem_cons.1 ho with rfl | ho
          · exact checkName_eq_ok hname
          · exact checkAccessors_spec h other ho

/-- Accessors that were checked are not taken: neither by one another nor by earlier fields. -/
theorem checkAccessors_distinct {name : String} {ns : Namespace} :
    ∀ {fields earlier : List ResolvedField}, checkAccessors name ns earlier fields = .ok () →
      (fields.map (·.accessorName)).Nodup
        ∧ ∀ field ∈ fields, ∀ other ∈ earlier, other.accessorName ≠ field.accessorName
  | [], _, _ => ⟨List.nodup_nil, by simp⟩
  | field :: rest, earlier, h => by
      unfold checkAccessors at h
      split at h
      · cases h
      · split at h
        · cases h
        · rename_i hfree
          have hnew : ∀ other ∈ earlier, other.accessorName ≠ field.accessorName :=
            fun other ho => by simpa using List.find?_eq_none.1 hfree other ho
          obtain ⟨hrest, hapart⟩ := checkAccessors_distinct h
          refine ⟨List.nodup_cons.2 ⟨fun hm => ?_, hrest⟩, List.forall_mem_cons.2 ⟨hnew, ?_⟩⟩
          · obtain ⟨other, ho, he⟩ := List.mem_map.1 hm
            exact hapart other ho field (List.mem_append_right _ List.mem_cons_self) he.symm
          · exact fun other ho before hb => hapart other ho before (List.mem_append_left _ hb)

theorem onlyPrimaryKey_eq_ok {name : String} {ns : Namespace} {fields : List ResolvedField}
    {key : ResolvedField} (h : onlyPrimaryKey name ns fields = .ok key) :
    fields.filter (·.isPrimaryKey) = [key] := by
  unfold onlyPrimaryKey at h
  split at h
  · cases h
  · rename_i only hkeys
    rw [hkeys, Except.ok.inj h]
  · cases h

/-! ## 3. Accepted data types -/

/-- What the checks of `make` have found. -/
structure Accepted (rules : Rules) (d : DataType) : Prop where
  name : nameFault? d.name = none
  settled : ∀ field ∈ d.fields, field.Settled rules
  accessors : ∀ field ∈ d.fields, nameFault? field.accessorName = none
  /-- The primary key is the one field that is tagged as such. -/
  primaryKey : d.fields.filter (·.isPrimaryKey) = [d.primaryKey]

/-- **A data type that is made has passed all checks; its fields are the given ones in the given
order.** -/
theorem make_accepted {rules : Rules} {name : String} {ns : Namespace}
    {fields : List (String × String)} {d : DataType} (h : make rules name ns fields = .ok d) :
    d.Accepted rules ∧ d.name = name ∧ d.ns = ns
      ∧ d.fields.map (·.name) = fields.map (·.1) := by
  obtain ⟨hname, hresolved, haccessors, hkey, rfl, rfl⟩ := make_eq_ok h
  obtain ⟨hnames, hresolve⟩ := resolveAll_spec hresolved
  have hsettled : ∀ field ∈ d.fields, field.Settled rules := by
    intro field hf
    obtain ⟨_, _, hfield⟩ := hresolve field hf
    exact (ResolvedField.resolve_settled hfield).2
  exact ⟨⟨checkName_eq_ok hname, hsettled, checkAccessors_spec haccessors,
    onlyPrimaryKey_eq_ok hkey⟩, rfl, rfl, hnames⟩

/-- No two fields of a data type that is made have one name: an accessor follows from the name. -/
theorem nodup_names_of_make {rules : Rules} {name : String} {ns : Namespace}
    {fields : List (String × String)} {d : DataType} (h : make rules name ns fields = .ok d) :
    (d.fields.map (·.name)).Nodup := by
  obtain ⟨_, _, haccessors, _⟩ := make_eq_ok h
  have hmap : d.fields.map (·.accessorName) = (d.fields.map (·.name)).map fun name =>
      String.ofList (ResolvedField.camelCase (name.toList.splitOn '_')) := by
    rw [List.map_map]
    rfl
  exact List.Nodup.of_map _ (hmap ▸ (checkAccessors_distinct haccessors).1)

/-- The base types that need a header follow from the fields. -/
theorem includes_of_make {rules : Rules} {name : String} {ns : Namespace}
    {fields : List (String × String)} {d : DataType} (h : make rules name ns fields = .ok d) :
    d.includes = includesOf rules d.fields := by
  unfold make at h
  split at h
  · cases h
  · split at h
    · cases h
    · split at h
      · cases h
      · split at h
        · cases h
        · rw [← Except.ok.inj h]

theorem Accepted.primaryKey_mem {rules : Rules} {d : DataType} (h : d.Accepted rules) :
    d.primaryKey ∈ d.fields := by
  have hm : d.primaryKey ∈ d.fields.filter (·.isPrimaryKey) := by simp [h.primaryKey]
  exact (List.mem_filter.1 hm).1

/-- There is at least one field, the primary key. -/
theorem Accepted.fields_ne_nil {rules : Rules} {d : DataType} (h : d.Accepted rules) :
    d.fields ≠ [] := List.ne_nil_of_mem h.primaryKey_mem

end DataType

end MasterSchema
