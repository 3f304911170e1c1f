import MasterSchema.Proofs.Artifact.Agreement
import MasterSchema.Proofs.Validation.Report

/-!
# What the generated loader asks of a record

The definition of a repository reads a record field by field, each under its name; a check of a
record compares the names it has with the declared ones. Neither knows of the other, and both ask
for the same names, under the default rules and options (`checkRecord_eq_nil_iff_readsUnder`).

* `ReadsUnder` says that a text reads a record under a key, wherever in the text;
* a line of a definition has no bracket, or it takes the table view, or it names one field
  (`bracket_cases`);
* so the keys under which a definition reads are the declared names (`readsUnder_definition`).
-/

namespace MasterSchema

open Text

variable {d : DataType}

/-! ## 1. Brackets -/

/-- A text has the value of a record under a key. The key is what stands between the quotes. -/
def ReadsUnder (text key : String) : Prop :=
  '"' ∉ key.toList ∧ ("toml_value[U\"" ++ key ++ "\"]").toList <:+: text.toList

/-- A line has one bracket, and the name of a field is quoted behind it. -/
def NamesField (field : ResolvedField) (line : String) : Prop :=
  ∃ before behind : List Char, '[' ∉ before ∧ '[' ∉ behind
    ∧ line.toList = before ++ '[' :: ("U\"".toList ++ (field.name.toList ++ '"' :: behind))

/-- The line that takes the records out of a record source. -/
def tableLine : String :=
  "    s3d::TOMLTableView table = toml[key].tableView();"

/-- What brackets a line of a definition can have. -/
inductive Bracketed (d : DataType) (line : String) : Prop
  | none (h : '[' ∉ line.toList)
  | table (h : line = tableLine)
  | names (field : ResolvedField) (hf : field ∈ d.fields) (h : NamesField field line)

namespace RepositoryDefinition

variable {field : ResolvedField} (hname : isIdentifier field.name = true)
  (hstorage : '[' ∉ field.storageType.toList)

include hname hstorage

theorem namesField_readField {front close : String} (hfront : '[' ∉ front.toList)
    (hclose : '[' ∉ close.toList) : NamesField field (front ++ readField {} field ++ close) := by
  have hfield : '[' ∉ field.name.toList := not_mem_of_isIdentifier hname (by decide)
  unfold readField
  split
  · refine ⟨front.toList ++ (field.storageType ++ "(toml_value").toList,
      ("].get<int>())" ++ close).toList, ?_, ?_, ?_⟩
    · simp [hfront, hstorage]
    · simp [hclose]
    · simp
  · refine ⟨front.toList ++ "toml_value".toList,
      ("].get<" ++ field.storageType ++ ">()" ++ close).toList, ?_, ?_, ?_⟩
    · simp [hfront]
    · simp [hclose, hstorage]
    · simp

end RepositoryDefinition

section Definition

variable (ha : d.Accepted {}) (hs : d.Spelled)

include ha hs

theorem without_bracket : Artifact.Without '[' {} d :=
  Artifact.without_default ha hs (by decide) (by decide)

theorem bracketed_body : ∀ line ∈ Artifact.body {} d .definition, Bracketed d line := by
  have hfree := without_bracket ha hs
  have hdname : '[' ∉ d.name.toList := Artifact.not_mem_of_checked ha.name (by decide)
  have hread : ∀ {front close : String}, '[' ∉ front.toList → '[' ∉ close.toList →
      ∀ field ∈ d.fields,
        Bracketed d (front ++ RepositoryDefinition.readField {} field ++ close) := by
    intro front close hfront hclose field hf
    have hname := isIdentifier_of_nameFault? (ha.settled field hf).name
    exact .names field hf
      (RepositoryDefinition.namesField_readField hname (hfree.storage field hf) hfront hclose)
  have hclass : '[' ∉ (({} : ArtifactOptions).valueClass d).toList := by
    simp [ArtifactOptions.valueClass, hdname]
  have hrepository : '[' ∉ (({} : ArtifactOptions).repository d).toList := by
    simp [ArtifactOptions.repository, hdname]
  have harguments : ∀ line ∈ withSeparators "," ")));"
      (d.fields.map (RepositoryDefinition.argument {})), Bracketed d line :=
    forall_withSeparators ha.fields_ne_nil fun field hf close hclose =>
      hread (by decide) (by rcases hclose with rfl | rfl <;> decide) field hf
  simp only [Artifact.body, RepositoryDefinition.body, List.forall_mem_append,
    List.forall_mem_cons]
  refine ⟨⟨⟨?_, ?_, ?_, .table rfl, ?_, ?_, ?_, hread (by decide) (by decide) _ ha.primaryKey_mem,
    ?_, by simp⟩, harguments⟩, ?_, ?_, by simp⟩
  all_goals exact .none (by simp [hdname, hclass, hrepository])

/-- **A line of a definition has no bracket, or takes the table view, or names a field.** -/
theorem bracketed_definition : ∀ line ∈ Artifact.lines {} d .definition, Bracketed d line := by
  have hprologue : ∀ line ∈ Artifact.prologue {} d .definition, '[' ∉ line.toList :=
    Artifact.not_mem_prologue (without_bracket ha hs) ha (by decide) (by decide) .definition
  rw [Artifact.lines_eq]
  simp only [List.forall_mem_append]
  exact ⟨fun line hl => .none (hprologue line hl), bracketed_body ha hs,
    fun line hl => .none (Artifact.not_mem_closing (by decide) line hl)⟩

/-! ## 2. The keys of a definition -/

omit hs in
/-- A declared field is read under its name. -/
theorem readsUnder_of_mem {field : ResolvedField} (hf : field ∈ d.fields) :
    ReadsUnder (Artifact.textOf {} d .definition) field.name := by
  have hread : ("toml_value[U\"" ++ field.name ++ "\"]").toList
      <:+: (RepositoryDefinition.readField {} field).toList := by
    unfold RepositoryDefinition.readField
    split
    · exact ⟨(field.storageType ++ "(").toList, ".get<int>())".toList, by simp⟩
    · exact ⟨[], (".get<" ++ field.storageType ++ ">()").toList, by simp⟩
  obtain ⟨close, hclose⟩ : ∃ close, RepositoryDefinition.argument {} field ++ close
      ∈ withSeparators "," ")));" (d.fields.map (RepositoryDefinition.argument {})) :=
    mem_withSeparators hf
  have hline : RepositoryDefinition.argument {} field ++ close
      ∈ Artifact.lines {} d .definition := by
    rw [Artifact.lines_eq, Artifact.body, RepositoryDefinition.body]
    simp [hclose]
  have hargument : (RepositoryDefinition.readField {} field).toList
      <:+: (RepositoryDefinition.argument {} field ++ close).toList :=
    ⟨"                ".toList, close.toList, by simp [RepositoryDefinition.argument]⟩
  have hname := isIdentifier_of_nameFault? (ha.settled field hf).name
  exact ⟨not_mem_of_isIdentifier hname (by decide),
    (hread.trans hargument).trans (infix_ofLines hline)⟩

/-- **A definition reads a record under the declared names and under no other.** -/
theorem readsUnder_definition {key : String} :
    ReadsUnder (Artifact.textOf {} d .definition) key ↔ key ∈ d.fields.map (·.name) := by
  constructor
  · intro hreads
    obtain ⟨hquote, front, back, htext⟩ := hreads
    have hmark : (Artifact.textOf {} d .definition).toList
        = front ++ ("toml_value[U\"".toList ++ (key.toList ++ '"' :: ']' :: back)) := by
      rw [← htext]
      simp
    obtain ⟨line, hl, before, behind, later, hline, hback⟩ :=
      line_of_infix (by decide) (by decide) hmark
    have hbracket : line.toList = (before ++ "toml_value".toList)
        ++ '[' :: ("U\"".toList ++ behind) := by
      rw [hline]
      simp
    cases bracketed_definition ha hs line hl with
    | none hnone =>
      rw [hbracket] at hnone
      exact absurd (List.mem_append_right _ List.mem_cons_self) hnone
    | table htable =>
      -- the table view is taken under a name, not under a text
      have hview : line.toList = "    s3d::TOMLTableView table = toml".toList
          ++ '[' :: "key].tableView();".toList := by
        rw [htable]
        decide
      rw [hbracket] at hview
      have htail := ((List.append_cons_inj_of_notMem (by decide) (by decide)).1 hview.symm).2.2
      exact absurd (List.cons.inj htail).1 (by decide)
    | names field hf hnames =>
      obtain ⟨before', behind', hbefore, hbehind, hnames⟩ := hnames
      have hname := isIdentifier_of_nameFault? (ha.settled field hf).name
      have hfieldBracket : '[' ∉ field.name.toList := not_mem_of_isIdentifier hname (by decide)
      have hfieldQuote : '"' ∉ field.name.toList := not_mem_of_isIdentifier hname (by decide)
      rw [hbracket] at hnames
      have htail := ((List.append_cons_inj_of_notMem hbefore
        (by simp [hfieldBracket, hbehind])).1 hnames.symm).2.2
      -- both names end at the first quote
      have hkey : key.toList ++ '"' :: ']' :: back
          = field.name.toList ++ '"' :: (behind' ++ '\n' :: later) := by
        rw [hback, ← List.append_cancel_left htail]
        simp
      have hcut := congrArg (cutFirst '"') hkey
      rw [cutFirst_append hquote, cutFirst_append hfieldQuote, Option.some_inj] at hcut
      rw [String.toList_inj.1 (congrArg Prod.fst hcut)]
      exact List.mem_map_of_mem hf
  · intro hm
    obtain ⟨field, hf, rfl⟩ := List.mem_map.1 hm
    exact readsUnder_of_mem ha hf

end Definition

/-! ## 3. Records -/

/-- **A record is clean exactly if it is a table with the keys that the loader reads.** -/
theorem checkRecord_eq_nil_iff_readsUnder {name : String} {ns : Namespace}
    {tokens : List (String × String)} (hmake : DataType.make {} name ns tokens = .ok d)
    (hs : d.Spelled) (key : String) (record : Value) :
    d.checkRecord key record = [] ↔ ∃ fields : Table, record = .table fields
      ∧ ∀ x, x ∈ fields.keys ↔ ReadsUnder (Artifact.generate {} d .definition).text x := by
  have ha := (DataType.make_accepted hmake).1
  have hkeys : ∀ x, ReadsUnder (Artifact.generate {} d .definition).text x
      ↔ x ∈ d.fields.map (·.name) := fun _ => readsUnder_definition ha hs
  simp only [hkeys]
  exact DataType.checkRecord_eq_nil ha.fields_ne_nil

theorem readsUnder_glyph : ValueClass.glyph.Spelled
    ∧ ValueClass.glyph.checkRecord "first"
      (.table [("glyph_id", .integer 1), ("text", .text "A")]) = []
    ∧ ∃ fields : Table,
      Value.table [("glyph_id", .integer 1), ("text", .text "A")] = .table fields
        ∧ ∀ x, x ∈ fields.keys
          ↔ ReadsUnder (Artifact.generate {} ValueClass.glyph .definition).text x := by
  have hs : ValueClass.glyph.Spelled := ⟨by decide, by decide⟩
  have hclean : ValueClass.glyph.checkRecord "first"
      (.table [("glyph_id", .integer 1), ("text", .text "A")]) = [] := by decide
  exact ⟨hs, hclean, (checkRecord_eq_nil_iff_readsUnder ValueClass.glyph_made hs _ _).1 hclean⟩

end MasterSchema
