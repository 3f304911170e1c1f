import Mathlib.Data.List.Nodup
import MasterSchema.Proofs.DataType.Accepted

/-!
# Schema text as names in generated code

A loaded data type brings names into generated code: its own, those of its namespace, and three for
each field. All of them have been checked or are made from a checked name (`CodeName`).

The storage type of an identifier field is made from the base type of its token, and that is not
checked: whatever is no colon and has no blanks around it comes through (`storageType_free`). So
such a storage type is a name exactly if its base type is an identifier (`codeNames_of_load`).
-/

namespace MasterSchema

/-! ## 1. Names in code -/

/-- A name that can stand in generated code. -/
structure CodeName (name : String) : Prop where
  identifier : isIdentifier name = true
  unreserved : isReserved name = false

theorem codeName_iff {name : String} : CodeName name ↔ nameFault? name = none := by
  unfold nameFault?
  constructor
  · intro h
    simp [h.identifier, h.unreserved]
  · intro h
    split at h
    · cases h
    · split at h
      · cases h
      · rename_i hidentifier hreserved
        exact ⟨by simpa using hidentifier, by simpa using hreserved⟩

/-- No reserved word ends as a text that no reserved word ends in. -/
theorem isReserved_of_suffix {ending : String}
    (h : ∀ word ∈ reservedWords, ¬ ending.toList <:+ word.toList) (front : String) :
    isReserved (front ++ ending) = false := by
  refine Bool.eq_false_iff.2 fun hreserved => ?_
  have hm : front ++ ending ∈ reservedWords := List.contains_iff_mem.1 hreserved
  refine h _ hm ?_
  rw [String.toList_append]
  exact List.suffix_append _ _

theorem isReserved_of_prefix {beginning : String}
    (h : ∀ word ∈ reservedWords, ¬ beginning.toList <+: word.toList) (back : String) :
    isReserved (beginning ++ back) = false := by
  refine Bool.eq_false_iff.2 fun hreserved => ?_
  have hm : beginning ++ back ∈ reservedWords := List.contains_iff_mem.1 hreserved
  refine h _ hm ?_
  rw [String.toList_append]
  exact List.prefix_append _ _

/-! ## 2. Fields -/

namespace ResolvedField

variable {rules : Rules} {name token : String} {field : ResolvedField}

/-- The member of a field with a name is a name too. -/
theorem codeName_memberName (h : CodeName field.name) : CodeName field.memberName where
  identifier := isIdentifier_memberName h.identifier
  unreserved := isReserved_of_prefix (by decide +kernel) field.name

/-- A token without a base type is not accepted. -/
theorem base_ne_of_resolve (h : resolve rules name token = .ok field) : field.base ≠ "" := by
  unfold resolve FieldDeclaration.read at h
  cases hn : checkName .field name with
  | error e => simp [hn] at h
  | ok _ =>
    cases hd : FieldDeclaration.ofParts rules name token (FieldDeclaration.tokenParts token) with
    | error e => simp [hn, hd] at h
    | ok declaration =>
      simp only [hn, hd, Except.ok.injEq] at h
      subst h
      unfold FieldDeclaration.ofParts at hd
      split at hd
      · cases hd
      · split at hd
        · cases hd
        · rename_i hbase
          split at hd
          · cases hd
          · split at hd
            · rw [← Except.ok.inj hd]
              exact fun he => hbase (beq_iff_eq.2 he)
            · cases hd

/-- **The storage type of an identifier is a name exactly if its base type is an identifier.** -/
theorem codeName_storageType (hsettled : field.Settled rules) (hne : field.base ≠ "")
    (hsuffix : ∀ c ∈ rules.idSuffix.toList, isIdentifierPart c = true)
    (hword : ∀ word ∈ reservedWords, ¬ rules.idSuffix.toList <:+ word.toList)
    (hid : field.isId = true) :
    CodeName field.storageType ↔ isIdentifier field.base = true := by
  rw [hsettled.domain hid]
  constructor
  · intro h
    exact (isIdentifier_append hne hsuffix).1 h.identifier
  · intro h
    exact ⟨(isIdentifier_append hne hsuffix).2 h, isReserved_of_suffix hword field.base⟩

end ResolvedField

/-! ## 3. Loaded data types -/

namespace DataType

/-- Schema text that stands as a name in the artifacts of a data type, storage types apart. -/
def checkedNames (d : DataType) : List String :=
  d.name :: d.ns.segments
    ++ d.fields.flatMap fun field => [field.name, field.accessorName, field.memberName]

/-- The checked names of a data type can stand in generated code. -/
theorem codeName_of_mem_checkedNames {rules : Rules} {d : DataType} (hnamed : d.Named)
    (ha : d.Accepted rules) : ∀ name ∈ d.checkedNames, CodeName name := by
  intro name hm
  rcases List.mem_append.1 hm with hm | hm
  · rcases List.mem_cons.1 hm with rfl | hm
    · exact codeName_iff.2 hnamed.name
    · exact codeName_iff.2 (hnamed.ns name hm)
  · obtain ⟨field, hf, hm⟩ := List.mem_flatMap.1 hm
    have hname : CodeName field.name := codeName_iff.2 (ha.settled field hf).name
    simp only [List.mem_cons, List.not_mem_nil, or_false] at hm
    rcases hm with rfl | rfl | rfl
    · exact hname
    · exact codeName_iff.2 (ha.accessors field hf)
    · exact ResolvedField.codeName_memberName hname

end DataType

namespace Registry

/-- The data types of a loaded registry are accepted under the rules it was loaded with, and each
field is resolved from a name and a token. -/
theorem resolved_of_load {options : SchemaOptions} {tree : Table} {r : Registry}
    (h : (load options tree).result = .ok r) : ∀ d ∈ r.types, d.Accepted options.rules
      ∧ ∀ field ∈ d.fields, ∃ name token,
        ResolvedField.resolve options.rules name token = .ok field := by
  intro d hd
  obtain ⟨_, _, _, _, hmake⟩ := made_of_load h d hd
  obtain ⟨_, hresolved, _⟩ := DataType.make_eq_ok hmake
  exact ⟨(DataType.make_accepted hmake).1, (DataType.resolveAll_spec hresolved).2⟩

/-! ## 4. Domains of identifiers -/

/-- A schema with one data type, whose key is an identifier of the domain `base`. -/
def domainSchema (base : String) : Table :=
  [("md_Line", .table [("data_type_name", .text "Line"),
    ("field", .table [("id", .text (base ++ ":ID:PKey"))])])]

/-- The key field that such a schema declares. -/
def domainField (base : String) : ResolvedField :=
  .ofDeclaration {} ⟨"id", base, true, true⟩

theorem resolve_domain {base : String} (hne : base ≠ "") (hcolon : ':' ∉ base.toList)
    (htrim : Text.trimmed base.toList = base.toList) :
    ResolvedField.resolve {} "id" (base ++ ":ID:PKey") = .ok (domainField base) := by
  have hparts : FieldDeclaration.tokenParts (base ++ ":ID:PKey") = [base, "ID", "PKey"] := by
    have htext : (base ++ ":ID:PKey").toList = base.toList ++ ':' :: "ID:PKey".toList := by simp
    have hrest : ("ID:PKey".toList.splitOn ':').map
        (fun part => String.ofList (Text.trimmed part)) = ["ID", "PKey"] := by decide +kernel
    rw [FieldDeclaration.tokenParts, htext, List.splitOn_append_cons_self,
      List.splitOn_eq_singleton hcolon, List.map_append, hrest, List.map_singleton, htrim,
      String.ofList_toList]
    rfl
  have hname : checkName .field "id" = .ok () := by decide +kernel
  have htags : FieldDeclaration.readTags {} "id" (base ++ ":ID:PKey") {} ["ID", "PKey"]
      = .ok ⟨true, true⟩ := rfl
  simp only [ResolvedField.resolve, FieldDeclaration.read, hname, hparts, FieldDeclaration.ofParts,
    beq_iff_eq, hne, if_false, htags, Bool.true_or, if_true, domainField]

theorem make_domain {base : String} (hne : base ≠ "") (hcolon : ':' ∉ base.toList)
    (htrim : Text.trimmed base.toList = base.toList) :
    DataType.make {} "Line" .root [("id", base ++ ":ID:PKey")]
      = .ok ⟨"Line", .root, [domainField base], domainField base,
        DataType.includesOf {} [domainField base]⟩ := by
  have hname : checkName .dataType "Line" = .ok () := by decide +kernel
  have hfields : DataType.resolveAll {} [("id", base ++ ":ID:PKey")] = .ok [domainField base] := by
    unfold DataType.resolveAll
    rw [resolve_domain hne hcolon htrim]
    rfl
  have haccessors : DataType.checkAccessors "Line" .root [] [domainField base] = .ok () := by
    have haccessor : checkName (.accessor (domainField base).name) (domainField base).accessorName
        = .ok () := by
      show checkName (.accessor "id")
        (String.ofList (ResolvedField.camelCase ("id".toList.splitOn '_'))) = .ok ()
      decide +kernel
    unfold DataType.checkAccessors
    rw [haccessor]
    rfl
  have hkey : DataType.onlyPrimaryKey "Line" .root [domainField base] = .ok (domainField base) :=
    rfl
  simp only [DataType.make, hname, hfields, haccessors, hkey]

/-- **Any text without a colon and without blanks around it is accepted as the domain of an
identifier**, and stands in the generated code. -/
theorem storageType_free {base : String} (hne : base ≠ "") (hcolon : ':' ∉ base.toList)
    (htrim : Text.trimmed base.toList = base.toList) :
    ∃ r, (load {} (domainSchema base)).result = .ok r ∧ ∃ d ∈ r.types, ∃ field ∈ d.fields,
      field.isId = true ∧ field.base = base ∧ field.storageType = base ++ "ID" := by
  have hmarker : ({} : SchemaOptions).isDeclaration "md_Line" = true := by decide +kernel
  have hof : DataType.ofDeclaration {} "md_Line" [("data_type_name", .text "Line"),
      ("field", .table [("id", .text (base ++ ":ID:PKey"))])] .root
      = DataType.make {} "Line" .root [("id", base ++ ":ID:PKey")] := rfl
  rw [make_domain hne hcolon htrim] at hof
  let d : DataType := ⟨"Line", .root, [domainField base], domainField base,
    DataType.includesOf {} [domainField base]⟩
  refine ⟨⟨[d], List.nodup_singleton _⟩, ?_, d, List.mem_singleton_self d, domainField base,
    List.mem_singleton_self _, rfl, rfl, rfl⟩
  simp [load, domainSchema, addEntries, addEntry, hmarker, declare, hof, register, empty,
    Logged.after, Logged.ok, Logged.andThen, d]

/-! ## 5. What a schema brings into generated code -/

/-- **What a schema brings into generated code under the default rules are names, the storage types
of identifiers apart; such a storage type is a name exactly if its base type is an identifier.** -/
theorem codeNames_of_load {options : SchemaOptions} (hrules : options.rules = {}) {tree : Table}
    {r : Registry} (h : (load options tree).result = .ok r) {d : DataType} (hd : d ∈ r.types) :
    (∀ name ∈ d.checkedNames, CodeName name) ∧ ∀ field ∈ d.fields, field.isId = true →
      (CodeName field.storageType ↔ isIdentifier field.base = true) := by
  obtain ⟨ha, hresolved⟩ := resolved_of_load h d hd
  refine ⟨DataType.codeName_of_mem_checkedNames (named_of_load h d hd) ha, fun field hf hid => ?_⟩
  obtain ⟨name, token, hresolve⟩ := hresolved field hf
  refine ResolvedField.codeName_storageType (ha.settled field hf)
    (ResolvedField.base_ne_of_resolve hresolve) ?_ ?_ hid
  · rw [hrules]
    exact List.all_eq_true.1 (by decide)
  · rw [hrules]
    decide +kernel

theorem codeNames_two_words : ∃ r, (load {} (domainSchema "Glyph Line")).result = .ok r
    ∧ ∃ d ∈ r.types, (∀ name ∈ d.checkedNames, CodeName name) ∧ ∃ field ∈ d.fields,
      field.isId = true ∧ field.storageType = "Glyph LineID" ∧ ¬ CodeName field.storageType := by
  have htrim : Text.trimmed "Glyph Line".toList = "Glyph Line".toList := by decide +kernel
  obtain ⟨r, hload, d, hd, field, hf, hid, hbase, hstorage⟩ :=
    storageType_free (by decide) (by decide) htrim
  have hrules : ({} : SchemaOptions).rules = {} := rfl
  obtain ⟨hnames, hiff⟩ := codeNames_of_load hrules hload hd
  have hword : isIdentifier field.base = false := by
    rw [hbase]
    decide
  refine ⟨r, hload, d, hd, hnames, field, hf, hid, hstorage, fun hcode => ?_⟩
  rw [(hiff field hf hid).1 hcode] at hword
  cases hword

end Registry

end MasterSchema
