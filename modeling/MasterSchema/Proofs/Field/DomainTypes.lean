import MasterSchema.Proofs.DataType.Accepted

/-!
# The types of identifiers are their own

An identifier is stored as its base type with the identifier suffix behind it, whatever the rules
say of the base type otherwise. If the suffix ends nothing that other fields are stored as
(`Rules.SuffixApart`), the type of an identifier is that of its domain and of nothing else
(`domainType_of_resolve`).

* Any other field is stored as an allowed base type or as what stands for one, so its type does not
  end in the suffix (`Settled.not_suffix`).
* Types of identifiers are told apart by what stands before the suffix
  (`Settled.storageType_eq_iff`).
-/

namespace MasterSchema

/-! ## 1. Rules that keep their suffix apart -/

/-- No allowed base type and nothing that is stored in place of one ends in the identifier
suffix. -/
structure Rules.SuffixApart (rules : Rules) : Prop where
  ne_empty : rules.idSuffix ≠ ""
  allowed : ∀ base ∈ rules.allowedTypes, ¬ rules.idSuffix.toList <:+ base.toList
  substituted : ∀ entry ∈ rules.substitutions, ¬ rules.idSuffix.toList <:+ entry.2.toList

theorem Rules.suffixApart_default : ({} : Rules).SuffixApart where
  ne_empty := by decide
  allowed := by decide +kernel
  substituted := by decide +kernel

theorem Rules.mem_of_substitution? {rules : Rules} {base stored : String}
    (h : rules.substitution? base = some stored) :
    ∃ entry ∈ rules.substitutions, entry.2 = stored := by
  unfold substitution? at h
  obtain ⟨entry, hfind, hstored⟩ := Option.map_eq_some_iff.1 h
  exact ⟨entry, List.mem_of_find?_eq_some hfind, hstored⟩

/-! ## 2. Storage types -/

namespace ResolvedField

variable {rules : Rules} {first second : ResolvedField}

/-- The type of an identifier ends in the suffix. -/
theorem Settled.suffix (h : first.Settled rules) (hid : first.isId = true) :
    rules.idSuffix.toList <:+ first.storageType.toList := by
  rw [h.domain hid, String.toList_append]
  exact List.suffix_append _ _

/-- The type of any other field does not. -/
theorem Settled.not_suffix (h : first.Settled rules) (hrules : rules.SuffixApart)
    (hid : first.isId = false) : ¬ rules.idSuffix.toList <:+ first.storageType.toList := by
  obtain ⟨hbase, hstorage⟩ := h.plain hid
  rw [hstorage]
  cases hstored : rules.substitution? first.base with
  | none => exact hrules.allowed first.base hbase
  | some stored =>
    obtain ⟨entry, hentry, rfl⟩ := Rules.mem_of_substitution? hstored
    exact hrules.substituted entry hentry

theorem Settled.storageType_eq_iff (h : first.Settled rules) (h' : second.Settled rules)
    (hid : first.isId = true) (hid' : second.isId = true) :
    first.storageType = second.storageType ↔ first.base = second.base := by
  rw [h.domain hid, h'.domain hid', String.append_left_inj]

/-! ## 3. Accepted tokens -/

/-- The type of an identifier, beside another field that is resolved under the same rules. -/
structure DomainType (rules : Rules) (field other : ResolvedField) : Prop where
  /-- Neither what the rules store in place of the base type nor the heavy types matter. -/
  storage : field.storageType = field.base ++ rules.idSuffix
  not_raw : field.storageType ≠ field.base
  not_allowed : field.storageType ∉ rules.allowedTypes
  not_substituted : ∀ entry ∈ rules.substitutions, field.storageType ≠ entry.2
  not_plain : other.isId = false → field.storageType ≠ other.storageType
  domain : other.isId = true → (field.storageType = other.storageType ↔ field.base = other.base)

/-- **An identifier is stored as a type of its domain, which no other field is stored as.** The
default rules keep their suffix apart, and so may others. -/
theorem domainType_of_resolve : ({} : Rules).SuffixApart ∧ ∀ rules : Rules, rules.SuffixApart →
    ∀ name token name' token' field other, resolve rules name token = .ok field →
      resolve rules name' token' = .ok other → field.isId = true →
        DomainType rules field other := by
  refine ⟨Rules.suffixApart_default, ?_⟩
  intro rules hrules name token name' token' field other hfield hother hid
  have hsettled := (resolve_settled hfield).2
  have hsettled' := (resolve_settled hother).2
  have hsuffix := hsettled.suffix hid
  refine ⟨hsettled.domain hid, ?_, ?_, ?_, ?_, ?_⟩
  · rw [hsettled.domain hid]
    exact fun heq => hrules.ne_empty (String.append_eq_left_iff.1 heq)
  · exact fun hm => hrules.allowed _ hm hsuffix
  · exact fun entry hm heq => hrules.substituted entry hm (heq ▸ hsuffix)
  · exact fun hid' heq => hsettled'.not_suffix hrules hid' (heq ▸ hsuffix)
  · exact hsettled.storageType_eq_iff hsettled' hid

/-- An identifier over a base type that is allowed, heavy and stored as another one, beside a field
of that base type. -/
theorem domainType_string : ∃ field other, resolve {} "name_id" "string:ID:PKey" = .ok field
    ∧ resolve {} "name" "string" = .ok other ∧ DomainType {} field other
    ∧ field.storageType = "stringID" ∧ other.storageType = "s3d::String" := by
  have hfield : resolve {} "name_id" "string:ID:PKey"
      = .ok ⟨"name_id", "string", "stringID", "const stringID&", true, true⟩ := by decide +kernel
  have hother : resolve {} "name" "string"
      = .ok ⟨"name", "string", "s3d::String", "const s3d::String&", false, false⟩ := by
    decide +kernel
  obtain ⟨hdefault, hall⟩ := domainType_of_resolve
  exact ⟨_, _, hfield, hother, hall {} hdefault _ _ _ _ _ _ hfield hother rfl, rfl, rfl⟩

end ResolvedField

end MasterSchema
