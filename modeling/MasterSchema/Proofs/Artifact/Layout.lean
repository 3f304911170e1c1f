import MasterSchema.Proofs.Artifact.Paths
import MasterSchema.Registry.Load

/-!
# The layout of the output directory

The artifacts of a loaded registry lie apart and below the output directory, if the class prefix
has no slash. A file's name has a dot and no segment of a namespace has one, so no artifact lies
where another needs a directory (`namesOf_prefix`).
-/

namespace MasterSchema.Artifact

theorem dot_mem_fileName (options : ArtifactOptions) (d : DataType) (kind : ArtifactKind) :
    '.' ∈ (fileName options d kind).toList := by
  simp [fileName_eq]

theorem dot_not_mem_directory {d : DataType} (h : d.Named) {kind : ArtifactKind} {name : String}
    (hm : name ∈ directoryName kind :: d.ns.segments) : '.' ∉ name.toList := by
  rcases List.mem_cons.1 hm with rfl | hm
  · cases kind <;> decide
  · exact (isIdentifier_spec (segments_spec h hm)).2.2

/-- **The way to an artifact is not the beginning of the way to another.** -/
theorem namesOf_prefix {options : ArtifactOptions} {d d' : DataType} (h' : d'.Named)
    {kind kind' : ArtifactKind} (hpre : namesOf options d kind <+: namesOf options d' kind') :
    namesOf options d kind = namesOf options d' kind' := by
  obtain ⟨rest, hrest⟩ := hpre
  rcases List.eq_nil_or_concat rest with rfl | ⟨front, last, rfl⟩
  · rw [← hrest, List.append_nil]
  · -- the file's name would be a directory's
    rw [List.concat_eq_append, ← List.append_assoc] at hrest
    have hfront := (List.append_inj' hrest rfl).1
    have hm : fileName options d kind ∈ directoryName kind' :: d'.ns.segments := by
      rw [← hfront]
      exact List.mem_append_left _ (List.mem_append_right _ List.mem_cons_self)
    exact absurd (dot_mem_fileName options d kind) (dot_not_mem_directory h' hm)

/-- How the artifacts of a registry lie in an output directory. -/
structure Layout (options : ArtifactOptions) (r : Registry) : Prop where
  length : (generateRegistry options r).length = 3 * r.size
  distinct : ((generateRegistry options r).map (·.path)).Nodup
  /-- No file would have to be a directory for another. -/
  apart : ∀ a ∈ generateRegistry options r, ∀ b ∈ generateRegistry options r,
    a.path.components <+: b.path.components → a = b
  placed : ∀ d ∈ r.types, ∀ a ∈ generateAll options d, ∃ top ∈ ["class", "repository"], ∃ file,
    a.path.parts = top :: d.ns.segments ++ [file]
  named : ∀ a ∈ generateRegistry options r, ∀ part ∈ a.path.parts,
    part ≠ "" ∧ part ≠ "." ∧ part ≠ ".." ∧ '/' ∉ part.toList
  components : ∀ a ∈ generateRegistry options r,
    a.path.components = a.path.parts.map Component.name
  joined : ∀ a ∈ generateRegistry options r, ∀ root : Path,
    (root.join a.path).components = root.components ++ a.path.components
  /-- Behind a root a path leads to a place below that of the root. -/
  inside : ∀ a ∈ generateRegistry options r, ∀ (root : Path) (working place : Location),
    root.fold? working = some place →
      (root.join a.path).fold? working = some (place ++ a.path.parts)

section Registries

variable {options : ArtifactOptions} {r : Registry}

theorem apart_of_named (h : ∀ d ∈ r.types, d.Named) (hslash : '/' ∉ options.classPrefix.toList)
    {a b : Artifact} (ha : a ∈ generateRegistry options r) (hb : b ∈ generateRegistry options r)
    (hpre : a.path.components <+: b.path.components) : a = b := by
  rw [(plain_of_mem h hslash ha).components_eq, (plain_of_mem h hslash hb).components_eq,
    List.prefix_map_iff_of_injective fun _ _ => Component.name.inj] at hpre
  refine List.inj_on_of_nodup_map (nodup_parts h hslash) ha hb ?_
  obtain ⟨d, hd, kind, rfl⟩ := mem_generateRegistry.1 ha
  obtain ⟨d', hd', kind', rfl⟩ := mem_generateRegistry.1 hb
  simp only [generate, parts_pathOf (h d hd) hslash, parts_pathOf (h d' hd') hslash] at hpre ⊢
  exact namesOf_prefix (h d' hd') hpre

theorem placed_of_named {d : DataType} (h : d.Named) (hslash : '/' ∉ options.classPrefix.toList)
    {a : Artifact} (ha : a ∈ generateAll options d) :
    ∃ top ∈ ["class", "repository"], ∃ file, a.path.parts = top :: d.ns.segments ++ [file] := by
  obtain ⟨kind, _, rfl⟩ := List.mem_map.1 ha
  exact ⟨directoryName kind, by cases kind <;> decide, fileName options d kind,
    parts_pathOf h hslash kind⟩

/-- **The artifacts of a loaded registry lie apart and below the output directory.** -/
theorem layout_of_load {schema : SchemaOptions} {tree : Table}
    (hload : (Registry.load schema tree).result = .ok r)
    (hslash : '/' ∉ options.classPrefix.toList) : Layout options r := by
  have h : ∀ d ∈ r.types, d.Named := Registry.named_of_load hload
  have hplain : ∀ a ∈ generateRegistry options r, a.path.Plain := fun a => plain_of_mem h hslash
  have hdistinct : ((generateRegistry options r).map (·.path)).Nodup := by
    refine List.Nodup.of_map Path.parts ?_
    rw [List.map_map]
    exact nodup_parts h hslash
  exact
    { length := length_generateRegistry options r
      distinct := hdistinct
      apart := fun a ha b hb => apart_of_named h hslash ha hb
      placed := fun d hd a ha => placed_of_named (h d hd) hslash ha
      named := fun a ha part hm => (hplain a ha).part_spec hm
      components := fun a ha => (hplain a ha).components_eq
      joined := fun a ha root => (hplain a ha).components_join root
      inside := fun a ha root working place hroot => (hplain a ha).fold?_join hroot }

end Registries

/-- A schema with data types of one name in nested namespaces. -/
def nestedSchema : Table :=
  let glyph : Value := .table [("data_type_name", .text "Glyph"),
    ("field", .table [("glyph_id", .text "glyph:ID:PKey")])]
  [("md_glyph", glyph), ("ui", .table [("icon", .table [("md_glyph", glyph)])])]

theorem layout_nestedSchema : ∃ r, (Registry.load {} nestedSchema).result = .ok r
    ∧ '/' ∉ ({} : ArtifactOptions).classPrefix.toList ∧ Layout {} r
    ∧ (generateRegistry {} r).map (·.path.text)
      = ["class/MasterGlyph.hpp", "repository/MasterGlyphRepository.hpp",
        "repository/MasterGlyphRepository.cpp", "class/ui/icon/MasterGlyph.hpp",
        "repository/ui/icon/MasterGlyphRepository.hpp",
        "repository/ui/icon/MasterGlyphRepository.cpp"] := by
  have hpaths : (Registry.load {} nestedSchema).result.map
      (fun r => (generateRegistry {} r).map (·.path.text))
      = .ok ["class/MasterGlyph.hpp", "repository/MasterGlyphRepository.hpp",
        "repository/MasterGlyphRepository.cpp", "class/ui/icon/MasterGlyph.hpp",
        "repository/ui/icon/MasterGlyphRepository.hpp",
        "repository/ui/icon/MasterGlyphRepository.cpp"] := by
    decide +kernel
  obtain ⟨r, hload, hview⟩ := exists_of_map_eq_ok hpaths
  exact ⟨r, hload, by decide, layout_of_load hload (by decide), hview⟩

end MasterSchema.Artifact
