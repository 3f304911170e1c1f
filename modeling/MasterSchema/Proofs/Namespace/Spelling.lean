import MasterSchema.Proofs.Path.Plain
import MasterSchema.Proofs.Registry.Names

/-!
# The spellings of a namespace

A namespace is spelled as a text with slashes and as a relative directory. A text that is read gives
proper segments, and a namespace of proper segments is read back from both spellings
(`ofDirectory_directory`, `ofText_toString`). Hence a directory belongs to one namespace.

* `..` is a segment like any other here: neither spelling is folded.
* The root is spelled `(root)`, which reads as a segment of that name. It is the only text that two
  proper namespaces share (`toString_eq_iff`), and no identifier.
* Below any directory, a namespace of identifiers leads to its segments (`fold?_join_directory`).

The namespaces of a loaded registry are of identifiers, so they are told apart (`spellings_apart`).
-/

namespace MasterSchema

theorem component?_of_identifier {name : String} (h : isIdentifier name = true) :
    Path.component? name = some (.name name) := by
  obtain ⟨hne, _, hdot⟩ := isIdentifier_spec h
  have hspecial : ∀ special : String, '.' ∈ special.toList → name ≠ special := by
    intro special hm e
    exact hdot (e ▸ hm)
  exact Path.component?_of_name hne (hspecial "." (by decide)) (hspecial ".." (by decide))

namespace Namespace

/-! ## 1. Proper segments -/

/-- What can stand between two slashes and is not left out. -/
structure IsSegment (segment : String) : Prop where
  ne_empty : segment ≠ ""
  slash : '/' ∉ segment.toList
  ne_here : segment ≠ "."

theorem isSegment_of_isIdentifier {name : String} (h : isIdentifier name = true) :
    IsSegment name := by
  obtain ⟨hne, hslash, hdot⟩ := isIdentifier_spec h
  refine ⟨hne, hslash, ?_⟩
  rintro rfl
  exact hdot (by decide)

namespace IsSegment

variable {segment : String}

theorem vacuous (h : IsSegment segment) : Path.isVacuous segment = false := by
  rw [Path.isVacuous, beq_false_of_ne h.ne_empty, beq_false_of_ne h.ne_here]
  rfl

/-- The component that a segment stands for is spelled as the segment, be it `..` or a name. -/
theorem text_component? (h : IsSegment segment) :
    (Path.component? segment).map Component.text = some segment := by
  rcases Path.component?_cases segment with ⟨hvacuous, _⟩ | ⟨rfl, hup⟩ | ⟨_, _, hname⟩
  · cases h.vacuous.symm.trans hvacuous
  · rw [hup]
    rfl
  · rw [hname]
    rfl

end IsSegment

/-- All segments are proper. -/
def Proper (ns : Namespace) : Prop :=
  ∀ segment ∈ ns.segments, IsSegment segment

/-- All segments are identifiers. -/
def Identified (ns : Namespace) : Prop :=
  ∀ segment ∈ ns.segments, isIdentifier segment = true

variable {ns a b : Namespace}

theorem Identified.proper (h : ns.Identified) : ns.Proper :=
  fun segment hm => isSegment_of_isIdentifier (h segment hm)

theorem Named.identified (h : ns.Named) : ns.Identified :=
  fun segment hm => isIdentifier_of_nameFault? (h segment hm)

theorem segments_inj (h : a.segments = b.segments) : a = b := by
  obtain ⟨segments⟩ := a
  exact congrArg mk h

/-! ## 2. Reading texts -/

theorem ofText_eq (text : String) :
    ofText text = ⟨(Path.mk text).parts.filter fun part => !Path.isVacuous part⟩ := rfl

/-- **Whatever text is read, the segments are proper.** -/
theorem proper_ofText (text : String) : (ofText text).Proper := by
  intro segment hm
  rw [ofText_eq] at hm
  obtain ⟨hpart, hkept⟩ := List.mem_filter.1 hm
  refine ⟨?_, Path.slash_not_mem_of_mem_parts hpart, ?_⟩
  · rintro rfl
    cases hkept
  · rintro rfl
    cases hkept

/-- Proper segments with slashes between them are read as they are. -/
theorem ofText_joined (h : ns.Proper) : ofText (Text.joined "/" ns.segments) = ns := by
  by_cases hroot : ns.segments = []
  · obtain rfl : ns = root := segments_inj hroot
    decide
  · have hparts : (Path.mk (Text.joined "/" ns.segments)).parts = ns.segments :=
      Path.parts_joined hroot fun segment hm => (h segment hm).slash
    have hkept : ns.segments.filter (fun part => !Path.isVacuous part) = ns.segments :=
      List.filter_eq_self.2 fun segment hm => by rw [(h segment hm).vacuous]; rfl
    rw [ofText_eq, hparts, hkept]

theorem toString_of_ne_root (h : ns ≠ root) : ns.toString = Text.joined "/" ns.segments := by
  have hroot : ns.isRoot = false := by
    rw [isRoot, List.isEmpty_eq_false_iff]
    exact fun hnil => h (segments_inj hnil)
  rw [Namespace.toString, hroot]
  rfl

theorem ofText_toString (h : ns.Proper) (hne : ns ≠ root) : ofText ns.toString = ns := by
  rw [toString_of_ne_root hne, ofText_joined h]

/-- Only a segment `(root)` is spelled as the root is. -/
theorem toString_eq_root_iff (h : ns.Proper) :
    ns.toString = root.toString ↔ ns = root ∨ ns = ⟨["(root)"]⟩ := by
  constructor
  · intro heq
    refine or_iff_not_imp_left.2 fun hne => ?_
    rw [← ofText_toString h hne, heq]
    decide
  · rintro (rfl | rfl)
    · rfl
    · decide

/-- **Two namespaces are spelled as one text only if one is the root and the other is a segment
`(root)`.** -/
theorem toString_eq_iff (ha : a.Proper) (hb : b.Proper) :
    a.toString = b.toString
      ↔ a = b ∨ (a = root ∧ b = ⟨["(root)"]⟩) ∨ (a = ⟨["(root)"]⟩ ∧ b = root) := by
  constructor
  · intro heq
    by_cases hra : a = root
    · subst hra
      rcases (toString_eq_root_iff hb).1 heq.symm with rfl | rfl
      · exact Or.inl rfl
      · exact Or.inr (Or.inl ⟨rfl, rfl⟩)
    · by_cases hrb : b = root
      · subst hrb
        exact Or.inr (Or.inr ⟨((toString_eq_root_iff ha).1 heq).resolve_left hra, rfl⟩)
      · left
        rw [← ofText_toString ha hra, heq, ofText_toString hb hrb]
  · rintro (rfl | ⟨rfl, rfl⟩ | ⟨rfl, rfl⟩)
    · rfl
    · decide
    · decide

theorem Identified.ne_segment_root (h : ns.Identified) : ns ≠ ⟨["(root)"]⟩ := by
  rintro rfl
  exact absurd (h "(root)" List.mem_cons_self) (by decide)

/-! ## 3. Directories -/

/-- The directory of a namespace has its segments as parts, unless it is the root's. -/
theorem parts_directory (h : ns.Proper) (hne : ns ≠ root) : ns.directory.parts = ns.segments :=
  Path.parts_ofParts (fun hnil => hne (segments_inj hnil)) fun segment hm =>
    ⟨(h segment hm).ne_empty, (h segment hm).slash⟩

theorem isAbsolute_directory (h : ns.Proper) : ns.directory.isAbsolute = false := by
  by_cases hne : ns = root
  · subst hne
    decide
  · refine Path.isAbsolute_of_head fun part hm => ?_
    rw [parts_directory h hne] at hm
    exact (h part hm).ne_empty

theorem steps_directory (h : ns.Proper) :
    ns.directory.steps = ns.segments.filterMap Path.component? := by
  by_cases hne : ns = root
  · subst hne
    decide
  · rw [Path.steps, parts_directory h hne]

/-- No segment is `.`, so the components of a directory are its steps. -/
theorem components_directory (h : ns.Proper) : ns.directory.components = ns.directory.steps := by
  have hhere : (ns.directory.parts.head? == some ".") = false := by
    by_cases hne : ns = root
    · subst hne
      decide
    · rw [beq_eq_false_iff_ne, parts_directory h hne]
      exact fun e => (h "." (List.mem_of_head? e)).ne_here rfl
  rw [Path.components, isAbsolute_directory h, hhere]
  rfl

theorem texts_directory (h : ns.Proper) :
    ns.directory.components.map Component.text = ns.segments := by
  have htexts : ns.segments.filterMap (fun part => (Path.component? part).map Component.text)
      = ns.segments.filterMap some :=
    List.filterMap_congr fun part hm => (h part hm).text_component?
  rw [components_directory h, steps_directory h, List.map_filterMap, htexts, List.filterMap_some]

/-- **A namespace is read back from its directory.** -/
theorem ofDirectory_directory (h : ns.Proper) : ofDirectory ns.directory = ns := by
  rw [ofDirectory, texts_directory h, ofText_joined h]

theorem directory_inj (ha : a.Proper) (hb : b.Proper)
    (h : a.directory.components = b.directory.components) : a = b := by
  rw [← ofDirectory_directory ha, ← ofDirectory_directory hb, ofDirectory, ofDirectory, h]

/-- Below a directory, a namespace of identifiers leads to its segments. -/
theorem fold?_join_directory (h : ns.Identified) {dir : Path} {working place : Location}
    (hdir : dir.fold? working = some place) :
    (dir.join ns.directory).fold? working = some (place ++ ns.segments) := by
  have hcomponents : ns.segments.filterMap Path.component?
      = ns.segments.filterMap (some ∘ Component.name) :=
    List.filterMap_congr fun segment hm => component?_of_identifier (h segment hm)
  have hsteps : ns.directory.steps = ns.segments.map Component.name := by
    rw [steps_directory h.proper, hcomponents, List.filterMap_eq_map]
  exact Path.fold?_join_names (isAbsolute_directory h.proper) hsteps hdir

/-! ## 4. Namespaces apart -/

/-- What tells two namespaces apart: their directories as paths, their texts, and the places that
their directories lead to. -/
structure ToldApart (a b : Namespace) : Prop where
  directory : a.Proper → b.Proper → (a.directory.components = b.directory.components ↔ a = b)
  text : a.Identified → b.Identified → (a.toString = b.toString ↔ a = b)
  place : a.Identified → b.Identified → ∀ dir : Path, ∀ working place : Location,
    dir.fold? working = some place →
      ((dir.join a.directory).fold? working = (dir.join b.directory).fold? working ↔ a = b)

theorem told_apart (a b : Namespace) : ToldApart a b where
  directory ha hb := ⟨directory_inj ha hb, fun h => h ▸ rfl⟩
  text ha hb := by
    rw [toString_eq_iff ha.proper hb.proper]
    constructor
    · rintro (h | ⟨_, h⟩ | ⟨h, _⟩)
      · exact h
      · exact absurd h hb.ne_segment_root
      · exact absurd h ha.ne_segment_root
    · exact Or.inl
  place ha hb dir working place hdir := by
    rw [fold?_join_directory ha hdir, fold?_join_directory hb hdir, Option.some_inj,
      List.append_cancel_left_eq]
    exact ⟨segments_inj, fun h => h ▸ rfl⟩

/-- **A text is read as proper segments, a namespace of proper segments is read back from its
directory and, but for the root, from its text, and no two namespaces of a loaded registry are
confused.** -/
theorem spellings_apart : (∀ text, (ofText text).Proper)
    ∧ (∀ ns : Namespace, ns.Proper →
      ofDirectory ns.directory = ns ∧ (ns ≠ root → ofText ns.toString = ns))
    ∧ (∀ a b, ToldApart a b)
    ∧ ∀ options tree r, (Registry.load options tree).result = .ok r →
      ∀ d ∈ r.types, d.ns.Identified :=
  ⟨proper_ofText, fun _ hns => ⟨ofDirectory_directory hns, ofText_toString hns⟩, told_apart,
    fun _ _ _ hload d hd => (Registry.named_of_load hload d hd).ns.identified⟩

/-- A schema with a data type at the top and one in a nested namespace. -/
def radicalSchema : Table :=
  let declaration (name : String) : Value := .table [("data_type_name", .text name),
    ("field", .table [("id", .text "int:PKey")])]
  [("md_kanji", declaration "Kanji"),
    ("kanji", .table [("radical", .table [("md_radical", declaration "Radical")])])]

theorem spellings_apart_radical :
    (ofText "kanji/.//../radical/").segments = ["kanji", "..", "radical"]
      ∧ ofDirectory (⟨["kanji", "..", "radical"]⟩ : Namespace).directory
        = ⟨["kanji", "..", "radical"]⟩
      ∧ ofText (⟨["kanji", "..", "radical"]⟩ : Namespace).toString = ⟨["kanji", "..", "radical"]⟩
      ∧ ∃ r, (Registry.load {} radicalSchema).result = .ok r
        ∧ r.types.map (·.ns.toString) = ["(root)", "kanji/radical"]
        ∧ ∀ a ∈ r.types, ∀ b ∈ r.types, a.ns.toString = b.ns.toString ↔ a.ns = b.ns := by
  obtain ⟨hread, hback, hapart, hloaded⟩ := spellings_apart
  have htext : ofText "kanji/.//../radical/" = ⟨["kanji", "..", "radical"]⟩ := by decide
  obtain ⟨hdirectory, hspelled⟩ := hback ⟨["kanji", "..", "radical"]⟩ (htext ▸ hread _)
  have hview : (Registry.load {} radicalSchema).result.map (fun r => r.types.map (·.ns.toString))
      = .ok ["(root)", "kanji/radical"] := by
    decide +kernel
  obtain ⟨r, hload, hspellings⟩ := exists_of_map_eq_ok hview
  exact ⟨by rw [htext], hdirectory, hspelled (by decide), r, hload, hspellings, fun a ha b hb =>
    (hapart a.ns b.ns).text (hloaded _ _ r hload a ha) (hloaded _ _ r hload b hb)⟩

end Namespace

end MasterSchema
