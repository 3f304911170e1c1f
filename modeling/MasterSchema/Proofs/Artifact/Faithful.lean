import MasterSchema.Proofs.Artifact.Agreement

/-!
# Artifacts are faithful

A data type can be told from its three artifacts, under the default rules and options
(`eq_of_generateAll`). What is read back is the same for equal texts, so it remains to say what of a
data type is read where:

* the namespace from the lines that open one (`openedIn_lines`);
* the name from the class that is declared;
* name, storage type and tag of each field from the argument that reads it, and so its base
  (`base_of_storage`); its call type from its accessor;
* the primary key from the expression that reads the key of a record: no other field has its name
  (`isPrimaryKey_iff`).
-/

namespace MasterSchema

open Text

attribute [ext] ResolvedField DataType

/-! ## 1. Namespaces -/

namespace Artifact

variable {options : ArtifactOptions} {d : DataType}

/-- The namespace that a line opens. -/
def opened? (line : String) : Option String :=
  (stripped? "namespace " " \x7b" line).map String.ofList

def openedIn (lines : List String) : List String :=
  lines.filterMap opened?

theorem opened?_of_head {line : String} (h : line.toList.head? ≠ some 'n') :
    opened? line = none := by
  rw [opened?, stripped?_of_head (by decide) h]
  rfl

theorem opened?_openLine (name : String) : opened? (openLine name) = some name := by
  have hline : (openLine name).toList
      = "namespace ".toList ++ (name.toList ++ " \x7b".toList) := by
    simp [openLine]
  rw [opened?, stripped?_of_eq hline, Option.map_some, String.ofList_toList]

theorem openedIn_append (front back : List String) :
    openedIn (front ++ back) = openedIn front ++ openedIn back :=
  List.filterMap_append

theorem openedIn_openLines (names : List String) : openedIn (names.map openLine) = names := by
  induction names with
  | nil => rfl
  | cons name rest ih =>
    rw [openedIn, List.map_cons, List.filterMap_cons_some (opened?_openLine name)]
    exact congrArg _ ih

/-- **The namespaces that an artifact opens are read back.** -/
theorem openedIn_lines (hindent : options.indent.toList.head? = some ' ') (hne : d.fields ≠ [])
    (kind : ArtifactKind) : openedIn (lines options d kind) = namespaceNames options d := by
  have hnone : ∀ l : List String, (∀ line ∈ l, line.toList.head? ≠ some 'n') → openedIn l = [] :=
    fun l h => List.filterMap_eq_nil_iff.2 fun line hl => opened?_of_head (h line hl)
  have hfront : openedIn (provenance options d :: preamble options d kind ++ [""]) = [] := by
    refine hnone _ fun line hl => ?_
    simp only [List.mem_append, List.mem_cons, List.not_mem_nil, or_false] at hl
    rcases hl with (rfl | hl) | rfl
    · unfold provenance
      split <;> simp
    · rcases mem_preamble hl with rfl | ⟨header, rfl⟩
      · decide
      · simp [ValueClass.includeLine]
    · decide
  have hback : openedIn ([""] ++ (body options d kind
      ++ "" :: (namespaceNames options d).map fun _ => "\x7d")) = [] := by
    refine hnone _ fun line hl => ?_
    simp only [List.mem_append, List.mem_cons, List.not_mem_nil, or_false, List.mem_map] at hl
    rcases hl with rfl | hl | rfl | ⟨_, _, rfl⟩
    · decide
    · exact fun hhead => absurd (hhead ▸ head_body hindent hne kind line hl) (by decide)
    · decide
    · decide
  have hlines : lines options d kind = (provenance options d :: preamble options d kind ++ [""])
      ++ ((namespaceNames options d).map openLine ++ ([""] ++ (body options d kind
        ++ "" :: (namespaceNames options d).map fun _ => "\x7d"))) := by
    simp [lines]
  rw [hlines, openedIn_append _ (List.map _ _ ++ _), openedIn_append (List.map _ _), hfront, hback,
    openedIn_openLines, List.nil_append, List.append_nil]

end Artifact

/-! ## 2. Fields -/

/-- How a field is read tells its name, its storage type and whether it is an identifier. -/
theorem RecordRead.ofField_inj {options : ArtifactOptions} {field field' : ResolvedField}
    (h : ofField options field = ofField options field') : field.name = field'.name
      ∧ field.storageType = field'.storageType ∧ field.isId = field'.isId := by
  have hmade : ∀ field : ResolvedField, (ofField options field).made.isSome = field.isId := by
    intro field
    unfold ofField
    split
    · rename_i hid
      exact hid.symm
    · rename_i hid
      exact (Bool.eq_false_iff.2 hid).symm
  refine ⟨?_, ?_, ?_⟩
  · rw [← ofField_key field, h, ofField_key]
  · rw [← ofField_yields field, h, ofField_yields]
  · rw [← hmade field, h, hmade]

/-- The storage type of a field tells its base type: no two allowed types are stored as one. -/
theorem base_of_storage {field field' : ResolvedField} (h : field.Settled {})
    (h' : field'.Settled {}) (hid : field.isId = field'.isId)
    (hstorage : field.storageType = field'.storageType) : field.base = field'.base := by
  cases htag : field.isId with
  | true =>
    rw [h.domain htag, h'.domain (hid ▸ htag)] at hstorage
    exact (String.append_left_inj _).1 hstorage
  | false =>
    obtain ⟨hbase, hstored⟩ := h.plain htag
    obtain ⟨hbase', hstored'⟩ := h'.plain (hid ▸ htag)
    have hinjective : ∀ base ∈ ({} : Rules).allowedTypes, ∀ base' ∈ ({} : Rules).allowedTypes,
        (({} : Rules).substitution? base).getD base
          = (({} : Rules).substitution? base').getD base' → base = base' := by
      decide +kernel
    exact hinjective _ hbase _ hbase' (hstored ▸ hstored' ▸ hstorage)

/-- The primary key is the one field with its name. -/
theorem DataType.Accepted.isPrimaryKey_iff {rules : Rules} {d : DataType} (ha : d.Accepted rules)
    (hnames : (d.fields.map (·.name)).Nodup) {field : ResolvedField} (hf : field ∈ d.fields) :
    field.isPrimaryKey = true ↔ field.name = d.primaryKey.name := by
  have hkey : ∀ other, other ∈ d.fields ∧ other.isPrimaryKey = true ↔ other = d.primaryKey := by
    intro other
    rw [← List.mem_filter, ha.primaryKey, List.mem_singleton]
  constructor
  · intro htag
    rw [(hkey field).1 ⟨hf, htag⟩]
  · intro hname
    rw [List.inj_on_of_nodup_map hnames hf ha.primaryKey_mem hname]
    exact ((hkey d.primaryKey).2 rfl).2

/-! ## 3. Data types -/

section Equal

variable {d d' : DataType} (ha : d.Accepted {}) (hs : d.Spelled) (ha' : d'.Accepted {})
  (hs' : d'.Spelled) (h : ∀ kind, linesAt d kind = linesAt d' kind)

include ha hs ha' hs' h

theorem ns_of_lines : d.ns = d'.ns := by
  have hopened := h .valueClass
  rw [linesAt_eq ha hs, linesAt_eq ha' hs'] at hopened
  have hnames := congrArg Artifact.openedIn hopened
  rw [Artifact.openedIn_lines (by decide) ha.fields_ne_nil,
    Artifact.openedIn_lines (by decide) ha'.fields_ne_nil] at hnames
  have hsegments : d.ns.segments = d'.ns.segments := List.append_cancel_left hnames
  exact congrArg Namespace.mk hsegments

theorem name_of_lines : d.name = d'.name := by
  have hread := read_declaration ha hs
  rw [h, read_declaration ha' hs'] at hread
  have hvalue : "Master" ++ d'.name = "Master" ++ d.name :=
    congrArg Declaration.value (Option.some.inj hread)
  exact ((String.append_right_inj _).1 hvalue).symm

/-- What is read of fields and key is the same. -/
theorem reads_of_lines : RecordRead.ofField {} d.primaryKey = RecordRead.ofField {} d'.primaryKey
    ∧ d.fields.map (RecordRead.ofField {}) = d'.fields.map (RecordRead.ofField {}) := by
  have hread := read_definition ha hs
  rw [h, read_definition ha' hs'] at hread
  have hsame := Option.some.inj hread
  exact ⟨(congrArg Definition.key hsame).symm, (congrArg Definition.arguments hsame).symm⟩

/-- The fields at one place are passed as the same type. -/
theorem callType_of_lines {i : Nat} {field field' : ResolvedField} (hi : d.fields[i]? = some field)
    (hi' : d'.fields[i]? = some field') : field.callType = field'.callType := by
  have hread := ValueClass.read_text ha (Artifact.unbroken_default ha hs)
  have hread' := ValueClass.read_text ha' (Artifact.unbroken_default ha' hs')
  have hwritten : ValueClass.written {} d = ValueClass.written {} d' :=
    Option.some.inj (hread.symm.trans
      ((congrArg ValueClass.Sections.ofLines? (h .valueClass)).trans hread'))
  have hat := (ValueClass.fieldAt_written ha (Artifact.unbroken_default ha hs) hi).accessor
  have hat' := (ValueClass.fieldAt_written ha' (Artifact.unbroken_default ha' hs') hi').accessor
  rw [hwritten, hat'] at hat
  exact (congrArg ValueClass.Accessor.type (Option.some.inj hat)).symm

/-- **The fields are the same, in the same order.** -/
theorem fields_of_lines (hnames : (d.fields.map (·.name)).Nodup)
    (hnames' : (d'.fields.map (·.name)).Nodup) : d.fields = d'.fields := by
  obtain ⟨hkey, hreads⟩ := reads_of_lines ha hs ha' hs' h
  have hkeyName := (RecordRead.ofField_inj hkey).1
  refine List.ext_getElem (by simpa using congrArg List.length hreads) fun i hi hi' => ?_
  have hf := List.getElem_mem hi
  have hf' := List.getElem_mem hi'
  have hread : RecordRead.ofField {} d.fields[i] = RecordRead.ofField {} d'.fields[i] := by
    rw [← List.getElem_map (RecordRead.ofField {}) (h := by simpa using hi)]
    simp only [hreads, List.getElem_map]
  obtain ⟨hname, hstorage, hid⟩ := RecordRead.ofField_inj hread
  have hbase := base_of_storage (ha.settled _ hf) (ha'.settled _ hf') hid hstorage
  have hcall := callType_of_lines ha hs ha' hs' h (List.getElem?_eq_getElem hi)
    (List.getElem?_eq_getElem hi')
  have htag : d.fields[i].isPrimaryKey = d'.fields[i].isPrimaryKey := by
    rw [Bool.eq_iff_iff, ha.isPrimaryKey_iff hnames hf, ha'.isPrimaryKey_iff hnames' hf', hname,
      hkeyName]
  exact ResolvedField.ext hname hbase hstorage hcall hid htag

end Equal

/-- **Data types with the same artifacts are the same**, under the default rules and options: in
name, namespace, fields with their order, and primary key. -/
theorem eq_of_generateAll {d d' : DataType} {name name' : String} {ns ns' : Namespace}
    {tokens tokens' : List (String × String)} (hmake : DataType.make {} name ns tokens = .ok d)
    (hs : d.Spelled) (hmake' : DataType.make {} name' ns' tokens' = .ok d') (hs' : d'.Spelled)
    (h : Artifact.generateAll {} d = Artifact.generateAll {} d') : d = d' := by
  have ha := (DataType.make_accepted hmake).1
  have ha' := (DataType.make_accepted hmake').1
  have hlines : ∀ kind, linesAt d kind = linesAt d' kind := by
    intro kind
    have hkind : Artifact.generate {} d kind = Artifact.generate {} d' kind :=
      List.map_inj_left.1 h kind (by cases kind <;> decide)
    have htext : Artifact.textOf {} d kind = Artifact.textOf {} d' kind :=
      congrArg Artifact.text hkind
    rw [linesAt, linesAt, htext]
  have hfields := fields_of_lines ha hs ha' hs' hlines (DataType.nodup_names_of_make hmake)
    (DataType.nodup_names_of_make hmake')
  have hkey : [d.primaryKey] = [d'.primaryKey] := by
    rw [← ha.primaryKey, ← ha'.primaryKey, hfields]
  have hincludes : d.includes = d'.includes := by
    rw [DataType.includes_of_make hmake, DataType.includes_of_make hmake', hfields]
  exact DataType.ext (name_of_lines ha hs ha' hs' hlines) (ns_of_lines ha hs ha' hs' hlines) hfields
    (List.singleton_inj.1 hkey) hincludes

/-- Blanks in a token and the order of its tags are no part of a data type. -/
theorem glyph_of_artifacts : ∃ d, DataType.make {} "Glyph" ⟨["ui"]⟩
      [("text", " string"), ("glyph_id", "glyph : PKey : ID")] = .ok d
    ∧ d.Spelled ∧ Artifact.generateAll {} d = Artifact.generateAll {} ValueClass.glyph
    ∧ d = ValueClass.glyph := by
  have hmake : DataType.make {} "Glyph" ⟨["ui"]⟩
      [("text", " string"), ("glyph_id", "glyph : PKey : ID")] = .ok ValueClass.glyph := by
    decide +kernel
  have hs : ValueClass.glyph.Spelled := ⟨by decide, by decide⟩
  exact ⟨_, hmake, hs, rfl, eq_of_generateAll hmake hs ValueClass.glyph_made hs rfl⟩

end MasterSchema
