import MasterSchema.Artifact.Basic
import MasterSchema.Proofs.Registry.Built
import MasterSchema.Proofs.Registry.Namespaces
import MasterSchema.Proofs.Registry.Walk

/-!
# Schema trees in another order

The tables of a schema tree that stand for namespaces may list their entries in any order.

* `Rearranged` says that two trees differ in that order only, at any depth; the tables of
  declarations are the same in both.
* The walk of a tree sees of a namespace's table only that it is a table (`SchemaEntry.outline`), so
  the walks of rearranged trees see the same entries in another order (`Rearranged.perm_outlines`).
* Whether entries can all be loaded does not depend on their order (`WellDeclared.perm`), and what
  they declare is the same up to its order (`Holds.perm_types`).
* So rearranged trees are both loaded or both refused, and what can be asked of the registries has
  the same answers (`load_rearranged`).
-/

namespace MasterSchema

/-! ## 1. Rearranged trees -/

/-- Two tables of a schema tree with the same entries, in another order in the tables themselves and
in the tables of namespaces below them. -/
inductive Rearranged (options : SchemaOptions) : Table → Table → Prop
  | nil : Rearranged options [] []
  | cons (entry : String × Value) {rest rest' : Table} (hrest : Rearranged options rest rest') :
      Rearranged options (entry :: rest) (entry :: rest')
  /-- A key that does not begin with the marker of declarations is that of a namespace. -/
  | inside {key : String} (hkey : options.isDeclaration key = false)
      {child child' rest rest' : Table} (hchild : Rearranged options child child')
      (hrest : Rearranged options rest rest') :
      Rearranged options ((key, .table child) :: rest) ((key, .table child') :: rest')
  | swap (entry other : String × Value) (rest : Table) :
      Rearranged options (entry :: other :: rest) (other :: entry :: rest)
  | trans {tree tree' tree'' : Table} (h : Rearranged options tree tree')
      (h' : Rearranged options tree' tree'') : Rearranged options tree tree''

/-! ## 2. What the walk sees of an entry -/

namespace SchemaEntry

/-- An entry as the walk sees it: the table of a namespace is a table, whatever is in it. -/
def outline (options : SchemaOptions) (e : SchemaEntry) : SchemaEntry :=
  match e.value with
  | .table _ => if options.isDeclaration e.key then e else ⟨e.ns, e.key, .table []⟩
  | _ => e

variable {options : SchemaOptions} {e : SchemaEntry}

/-- An outline is the entry itself, or that of a namespace's table. -/
theorem outline_cases (options : SchemaOptions) (e : SchemaEntry) : e.outline options = e
    ∨ (e.isDeclaration options = false ∧ (∃ table, e.value = .table table)
      ∧ e.outline options = ⟨e.ns, e.key, .table []⟩) := by
  unfold outline
  split
  · rename_i table htable
    split
    · exact Or.inl rfl
    · rename_i hmarker
      exact Or.inr ⟨Bool.eq_false_iff.2 hmarker, ⟨table, htable⟩, rfl⟩
  · exact Or.inl rfl

theorem outline_key (options : SchemaOptions) (e : SchemaEntry) :
    (e.outline options).key = e.key := by
  rcases outline_cases options e with h | ⟨_, _, h⟩ <;> rw [h]

theorem outline_of_declaration (h : e.isDeclaration options = true) : e.outline options = e := by
  rcases outline_cases options e with he | ⟨hnot, _⟩
  · exact he
  · simp [h] at hnot

theorem isDeclaration_outline (options : SchemaOptions) (e : SchemaEntry) :
    (e.outline options).isDeclaration options = e.isDeclaration options := by
  rw [isDeclaration, outline_key, isDeclaration]

theorem outline_table_iff :
    (∃ table, (e.outline options).value = .table table) ↔ ∃ table, e.value = .table table := by
  rcases outline_cases options e with he | ⟨_, htable, he⟩
  · rw [he]
  · rw [he]
    exact iff_of_true ⟨[], rfl⟩ htable

/-- A namespace's entry has the same outline whatever table it has. -/
theorem outline_namespace {key : String} (hkey : options.isDeclaration key = false)
    (ns : Namespace) (child : Table) :
    outline options ⟨ns, key, .table child⟩ = ⟨ns, key, .table []⟩ := by
  simp [outline, hkey]

end SchemaEntry

section Entries

variable {options : SchemaOptions} {entries entries' : List SchemaEntry}

theorem declarationsOf_outlines (options : SchemaOptions) (entries : List SchemaEntry) :
    declarationsOf options (entries.map (·.outline options)) = declarationsOf options entries := by
  have htest : (SchemaEntry.isDeclaration options) ∘ (SchemaEntry.outline options)
      = SchemaEntry.isDeclaration options :=
    funext (SchemaEntry.isDeclaration_outline options)
  rw [declarationsOf, declarationsOf, List.filter_map, htest]
  exact (List.map_congr_left fun e he =>
    SchemaEntry.outline_of_declaration (List.mem_filter.1 he).2).trans (List.map_id _)

/-- Entries can all be loaded exactly if their outlines can. -/
theorem wellDeclared_outlines :
    WellDeclared options (entries.map (·.outline options)) ↔ WellDeclared options entries := by
  have heach : ∀ {P : SchemaEntry → Prop}, (∀ e, P (e.outline options) ↔ P e) →
      ((∀ e ∈ entries.map (·.outline options), P e) ↔ ∀ e ∈ entries, P e) := by
    intro P hP
    rw [List.forall_mem_map]
    exact forall₂_congr fun e _ => hP e
  have htable := heach (P := fun e => ∃ table, e.value = .table table) fun e =>
    SchemaEntry.outline_table_iff
  have hsegment := heach (P := fun e => e.isDeclaration options = false →
    isIdentifier e.key = true ∧ isReserved e.key = false) fun e => by
      rw [SchemaEntry.isDeclaration_outline, SchemaEntry.outline_key]
  have haccepted := heach (P := fun e => e.isDeclaration options = true →
    ∃ d, e.Declares options d) fun e => by
      rw [SchemaEntry.isDeclaration_outline]
      exact imp_congr_right fun hmarker => by rw [SchemaEntry.outline_of_declaration hmarker]
  constructor
  · intro h
    exact ⟨htable.1 h.table, hsegment.1 h.segment, haccepted.1 h.accepted,
      declarationsOf_outlines options entries ▸ h.distinct⟩
  · intro h
    exact ⟨htable.2 h.table, hsegment.2 h.segment, haccepted.2 h.accepted,
      (declarationsOf_outlines options entries).symm ▸ h.distinct⟩

/-- **Whether entries can all be loaded does not depend on their order.** -/
theorem WellDeclared.perm (h : WellDeclared options entries) (hperm : entries.Perm entries') :
    WellDeclared options entries' where
  table e he := h.table e (hperm.mem_iff.2 he)
  segment e he := h.segment e (hperm.mem_iff.2 he)
  accepted e he := h.accepted e (hperm.mem_iff.2 he)
  distinct := ((hperm.filter _).map _).nodup_iff.1 h.distinct

end Entries

/-! ## 3. The walks of rearranged trees -/

/-- **The walks of rearranged trees see the same entries in another order.** -/
theorem Rearranged.perm_outlines {options : SchemaOptions} {tree tree' : Table}
    (h : Rearranged options tree tree') : ∀ ns,
      ((entriesIn options ns tree).map (·.outline options)).Perm
        ((entriesIn options ns tree').map (·.outline options)) := by
  induction h with
  | nil => exact fun _ => .nil
  | cons entry _ ih =>
    intro ns
    simp only [entriesIn, List.map_cons, List.map_append]
    exact ((ih ns).append_left _).cons _
  | inside hkey _ _ ihchild ihrest =>
    intro ns
    simp only [entriesIn, entriesBelow, hkey, List.map_cons, List.map_append, Bool.false_eq_true,
      if_false, SchemaEntry.outline_namespace hkey]
    exact ((ihchild _).append (ihrest ns)).cons _
  | swap entry other rest =>
    intro ns
    simp only [entriesIn, ← List.cons_append, ← List.append_assoc]
    exact ((List.perm_append_comm.append_right _)).map _
  | trans _ _ ih ih' => exact fun ns => (ih ns).trans (ih' ns)

namespace Registry

/-- An entry declares one data type at most. -/
theorem rightUnique_declares (options : SchemaOptions) :
    Relator.RightUnique fun (e : SchemaEntry) (d : DataType) =>
      e.Declares options d ∧ d.ns = e.ns := by
  intro e d d' h h'
  obtain ⟨table, hvalue, hd⟩ := h.1
  obtain ⟨table', hvalue', hd'⟩ := h'.1
  obtain rfl := Value.table.inj (hvalue.symm.trans hvalue')
  exact Except.ok.inj (hd.symm.trans hd')

/-- **What entries declare is the same in any order of theirs.** -/
theorem Holds.perm_types {options : SchemaOptions} {entries entries' : List SchemaEntry}
    {r r' : Registry} (h : Holds options entries r) (h' : Holds options entries' r')
    (hperm : (entries.map (·.outline options)).Perm (entries'.map (·.outline options))) :
    r.types.Perm r'.types := by
  have hdeclarations : (declarationsOf options entries).Perm (declarationsOf options entries') := by
    rw [← declarationsOf_outlines, ← declarationsOf_outlines options entries']
    exact hperm.filter _
  exact List.rel_perm_imp (rightUnique_declares options) h h' hdeclarations

/-! ## 4. Registries of the same data types -/

/-- What can be asked of two registries has the same answers; their data types and artifacts are the
same in another order. -/
structure Interchangeable (r r' : Registry) : Prop where
  types : r.types.Perm r'.types
  find : ∀ name ns, r.find name ns = r'.find name ns
  namespaces : r.namespaces = r'.namespaces
  countIn : ∀ ns, r.countIn ns = r'.countIn ns
  artifacts : ∀ options : ArtifactOptions,
    (Artifact.generateRegistry options r).Perm (Artifact.generateRegistry options r')

section Answers

variable {r r' : Registry} (h : r.types.Perm r'.types)

include h

theorem lookupError_of_perm (name : String) (ns : Namespace) :
    r.lookupError name ns = r'.lookupError name ns := by
  have hthere : (∃ d ∈ r.types, d.ns = ns) ↔ ∃ d ∈ r'.types, d.ns = ns :=
    exists_congr fun _ => and_congr_left fun _ => h.mem_iff
  unfold lookupError
  by_cases hns : ∃ d ∈ r.types, d.ns = ns
  · rw [if_pos hns, if_pos (hthere.1 hns)]
  · rw [if_neg hns, if_neg fun hns' => hns (hthere.2 hns')]

theorem find_of_perm (name : String) (ns : Namespace) : r.find name ns = r'.find name ns := by
  symm
  cases hfind : r.find name ns with
  | ok d =>
    obtain ⟨hd, hkey⟩ := find_eq_ok.1 hfind
    exact find_eq_ok.2 ⟨h.mem_iff.1 hd, hkey⟩
  | error e =>
    obtain ⟨hmissing, rfl⟩ := find_eq_error.1 hfind
    refine find_eq_error.2 ⟨fun hthere => hmissing ?_, lookupError_of_perm h name ns⟩
    obtain ⟨d, hd, hkey⟩ := hthere
    exact ⟨d, h.mem_iff.2 hd, hkey⟩

theorem namespaces_of_perm : r.namespaces = r'.namespaces := by
  refine Namespace.mergeSort_congr (Namespace.nodup_eraseDups _) (Namespace.nodup_eraseDups _) ?_
  intro ns
  rw [List.mem_eraseDups, List.mem_eraseDups]
  exact (h.map _).mem_iff

/-- **Registries of the same data types in another order give the same answers.** -/
theorem interchangeable_of_perm : Interchangeable r r' where
  types := h
  find := find_of_perm h
  namespaces := namespaces_of_perm h
  countIn _ := (h.filter _).length_eq
  artifacts _ := h.flatMap_right _

end Answers

/-- **Rearranged schema trees are both loaded or both refused; if they are loaded, what can be asked
of their registries has the same answers, and the same artifacts are generated.** Which error comes
out of a refused tree may depend on the order. -/
theorem load_rearranged {options : SchemaOptions} {tree tree' : Table}
    (h : Rearranged options tree tree') :
    ((∃ r, (load options tree).result = .ok r) ↔ ∃ r', (load options tree').result = .ok r')
    ∧ ∀ r r', (load options tree).result = .ok r → (load options tree').result = .ok r' →
      Interchangeable r r' := by
  have hperm := h.perm_outlines .root
  have hwell : WellDeclared options (entriesIn options .root tree)
      ↔ WellDeclared options (entriesIn options .root tree') := by
    refine wellDeclared_outlines.symm.trans (Iff.trans ?_ wellDeclared_outlines)
    exact ⟨fun hwell => hwell.perm hperm, fun hwell' => hwell'.perm hperm.symm⟩
  refine ⟨⟨fun hloaded => ?_, fun hloaded' => ?_⟩, fun r r' hr hr' => ?_⟩
  · obtain ⟨r, hr⟩ := hloaded
    obtain ⟨r', hr', _⟩ := load_of_wellDeclared (hwell.1 (wellDeclared_of_load hr).1)
    exact ⟨r', hr'⟩
  · obtain ⟨r', hr'⟩ := hloaded'
    obtain ⟨r, hr, _⟩ := load_of_wellDeclared (hwell.2 (wellDeclared_of_load hr').1)
    exact ⟨r, hr⟩
  · exact interchangeable_of_perm
      ((wellDeclared_of_load hr).2.perm_types (wellDeclared_of_load hr').2 hperm)

/-- The table of a declaration with an integer as primary key. -/
def keyedBy (name field : String) : Value :=
  .table [("data_type_name", .text name), ("field", .table [(field, .text "int:PKey")])]

/-- A schema tree with a namespace in another. -/
def strokes : Table :=
  [("kanji", .table [("md_Stroke", keyedBy "Stroke" "id"),
      ("radical", .table
        [("md_Form", keyedBy "Form" "id"), ("md_Stroke", keyedBy "Stroke" "no")])]),
    ("md_Grade", keyedBy "Grade" "id")]

/-- The same schema tree with the entries of every namespace the other way round. -/
def strokesReversed : Table :=
  [("md_Grade", keyedBy "Grade" "id"),
    ("kanji", .table [("radical", .table [("md_Stroke", keyedBy "Stroke" "no"),
      ("md_Form", keyedBy "Form" "id")]), ("md_Stroke", keyedBy "Stroke" "id")])]

theorem rearranged_strokes : Rearranged {} strokes strokesReversed :=
  .trans (.inside (by decide) (.trans (.cons _ (.inside (by decide) (.swap _ _ _) .nil))
    (.swap _ _ _)) (.cons _ .nil)) (.swap _ _ _)

/-- The data types come in another order, and all else is the same. -/
theorem load_strokes : ∃ r r', (load {} strokes).result = .ok r
    ∧ (load {} strokesReversed).result = .ok r'
    ∧ r.types.map (·.name) = ["Stroke", "Form", "Stroke", "Grade"]
    ∧ r'.types.map (·.name) = ["Grade", "Stroke", "Form", "Stroke"]
    ∧ Interchangeable r r' := by
  have hnames : (load {} strokes).result.map (·.types.map (·.name))
      = .ok ["Stroke", "Form", "Stroke", "Grade"] := by decide +kernel
  have hnames' : (load {} strokesReversed).result.map (·.types.map (·.name))
      = .ok ["Grade", "Stroke", "Form", "Stroke"] := by decide +kernel
  obtain ⟨r, hr, htypes⟩ := exists_of_map_eq_ok hnames
  obtain ⟨r', hr', htypes'⟩ := exists_of_map_eq_ok hnames'
  exact ⟨r, r', hr, hr', htypes, htypes', (load_rearranged rearranged_strokes).2 r r' hr hr'⟩

end Registry

end MasterSchema
