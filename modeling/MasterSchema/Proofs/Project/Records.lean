import MasterSchema.Project.Discovery
import MasterSchema.Proofs.FileTree.Reaching
import MasterSchema.Proofs.Project.Inputs

/-!
# What a run does to the records

The guard compares the output directory with the records directory, not with the records in it. So
an output directory may lie below the records directory, and the records below it are taken away
with it. That is the only way to lose a record: equal, above and beside the records directory the
output directory is refused or harmless (`record_survives_iff`).
-/

namespace MasterSchema

/-! ## 1. The files of a discovery -/

namespace Discovery

/-- A discovery sees every file below its directory. -/
theorem mem_filesBelow {t : FileTree} {place names : Location} :
    names ∈ filesBelow t place ↔
      names ≠ [] ∧ ∃ content, t.get? (place ++ names) = some (.file content) := by
  rw [filesBelow, List.mem_filterMap]
  constructor
  · intro hsome
    obtain ⟨⟨other, e⟩, hm, h⟩ := hsome
    cases e with
    | directory => cases h
    | file content =>
      obtain rfl : other = names := Option.some.inj h
      obtain ⟨hne, hg⟩ := FileTree.mem_below.1 hm
      exact ⟨hne, content, hg⟩
  · intro hsome
    obtain ⟨hne, content, hg⟩ := hsome
    exact ⟨(names, .file content), FileTree.mem_below.2 ⟨hne, hg⟩, rfl⟩

end Discovery

/-- The path of a file below a directory has the names on the way as its last steps. -/
theorem RecordFile.steps_pathBelow : ∀ (names : List String) (dir : Path),
    (∀ name ∈ names, isFileName name = true) →
      (pathBelow dir names).steps = dir.steps ++ names.map Component.name
  | [], dir, _ => (List.append_nil dir.steps).symm
  | name :: names, dir, h => by
      have hname := fileName_of_isFileName (h name List.mem_cons_self)
      have ih := steps_pathBelow names (dir.join ⟨name⟩) fun other ho =>
        h other (List.mem_cons_of_mem name ho)
      rw [Path.steps_join hname.relative, hname.steps, List.append_assoc] at ih
      exact ih

/-! ## 2. Records -/

namespace Project

/-- A record file as a discovery visits it: a file below the records directory with the extension
of a data file. -/
structure RecordAt (config : Config) (fs : FileSystem) (root names : Location)
    (content : ByteArray) : Prop where
  found : fs.find config.recordsDir = .ok (root, .directory)
  visited : names ∈ Discovery.filesBelow fs.tree root
  dataFile : (RecordFile.ofNames? config.recordsDir names).isSome = true
  stored : fs.tree.get? (root ++ names) = some (.file content)

variable {config : Config} {fs : FileSystem} {root names : Location} {content : ByteArray}

/-- The last name on the way to a record is one of a data file. -/
theorem RecordAt.name (h : RecordAt config fs root names content) :
    ∃ front name, names = front ++ [name] ∧ IsDataName name := by
  have hformat : (DataFormat.ofPath? (RecordFile.pathBelow config.recordsDir names)).isSome
      = true := by
    have hdata := h.dataFile
    unfold RecordFile.ofNames? at hdata
    dsimp only at hdata
    split at hdata
    · rename_i hf _
      rw [hf]
      rfl
    · cases hdata
  obtain ⟨name, hlast, hname⟩ := getLast?_of_ofPath? hformat
  obtain ⟨front, last, rfl⟩ :=
    (List.eq_nil_or_concat' names).resolve_left (Discovery.mem_filesBelow.1 h.visited).1
  rw [RecordFile.steps_pathBelow _ _ (FileTree.isFileName_of_get? h.stored), List.map_append,
    ← List.append_assoc] at hlast
  have heq : Component.name last = .name name :=
    Option.some.inj (List.getLast?_concat.symm.trans hlast)
  exact ⟨front, last, rfl, Component.name.inj heq ▸ hname⟩

/-- An output directory that is found above a record lies below the records directory. -/
theorem RecordAt.output_below (h : RecordAt config fs root names content) {r : Registry}
    (hprep : (prepare config fs).result = .ok r) {out : Location}
    (hout : fs.find config.outputDir = .ok (out, .directory)) (habove : out <+: root ++ names) :
    ∃ inner, inner ≠ [] ∧ inner <+: names ∧ out = root ++ inner := by
  have hfound : fs.find (config.inputPath .records) = .ok (root, .directory) := h.found
  have hroot : ¬ out <+: root := not_below_output hprep hfound out hout
  rcases List.prefix_or_prefix_of_prefix habove (List.prefix_append root names) with hp | hp
  · exact absurd hp hroot
  · obtain ⟨inner, rfl⟩ := hp
    refine ⟨inner, ?_, (List.prefix_append_right_inj root).1 habove, rfl⟩
    rintro rfl
    rw [List.append_nil] at hroot
    exact hroot List.prefix_rfl

/-- **A run keeps a record unless it is not refused and the output directory is found below the
records directory and above the record; then the record is gone.** -/
theorem record_survives_iff (h : RecordAt config fs root names content) :
    (generate config fs).tree.get? (root ++ names) = some (.file content) ↔
      ¬ ((∃ r, (prepare config fs).result = .ok r) ∧ ∃ inner, inner ≠ [] ∧ inner <+: names
        ∧ fs.find config.outputDir = .ok (root ++ inner, .directory)) := by
  obtain ⟨front, name, hnames, hname⟩ := h.name
  have hplace : root ++ names = (root ++ front) ++ [name] := by
    rw [hnames, List.append_assoc]
  constructor
  · intro hkept hlost
    obtain ⟨⟨r, hprep⟩, inner, _, hinner, hout⟩ := hlost
    rw [(generate_of_prepared hprep).2] at hkept
    refine absurd hkept ?_
    rw [hplace]
    refine replaceOutput_induction
      (motive := fun t => t.get? (root ++ front ++ [name]) ≠ some (.file content)) ?_ ?_
    · refine (FileSystem.removeDirectory_emptied hout).not_file ?_ content
      exact hplace ▸ (List.prefix_append_right_inj root).2 hinner
    · exact fun t a ha ht hw => ht ((writeDeep_artifact_iff hprep ha hname t content).1 hw)
  · intro hsafe
    rw [hplace]
    refine get?_generate hname (hplace ▸ h.stored) fun r hprep out hout habove => hsafe ?_
    obtain ⟨inner, hne, hinner, rfl⟩ := h.output_below hprep hout (hplace ▸ habove)
    exact ⟨⟨r, hprep⟩, inner, hne, hinner, hout⟩

/-- A project whose output directory stands below its records directory and holds a record file. -/
def nested : Config × FileSystem :=
  ({ layout := { output := ⟨"masterdata/gen"⟩ } },
    ⟨.ofEntries [(["schema"], .directory), (["schema", "master"], .directory),
      (["schema", "master", "masterdata.toml"], .file
        "[masterdata.md_Line]\ndata_type_name = \"Line\"\nfield.id = \"int:PKey\"\n".toUTF8),
      (["masterdata"], .directory), (["masterdata", "gen"], .directory),
      (["masterdata", "gen", "Line.toml"], .file "[masterdata.a]\nid = 1\n".toUTF8)], []⟩)

theorem record_lost_below_output :
    RecordAt nested.1 nested.2 ["masterdata"] ["gen", "Line.toml"]
        "[masterdata.a]\nid = 1\n".toUTF8
      ∧ (generate nested.1 nested.2).tree.get? (["masterdata"] ++ ["gen", "Line.toml"])
        ≠ some (.file "[masterdata.a]\nid = 1\n".toUTF8) := by
  have hstored : nested.2.tree.get? (["masterdata"] ++ ["gen", "Line.toml"])
      = some (.file "[masterdata.a]\nid = 1\n".toUTF8) := by decide +kernel
  have hrecord : RecordAt nested.1 nested.2 ["masterdata"] ["gen", "Line.toml"]
      "[masterdata.a]\nid = 1\n".toUTF8 :=
    ⟨by decide +kernel, Discovery.mem_filesBelow.2 ⟨List.cons_ne_nil _ _, _, hstored⟩,
      by decide +kernel, hstored⟩
  have hprep : (prepare nested.1 nested.2).result.isOk = true := by decide +kernel
  refine ⟨hrecord, fun hkept => (record_survives_iff hrecord).1 hkept ⟨?_, ["gen"], ?_⟩⟩
  · cases hp : (prepare nested.1 nested.2).result with
    | error e => rw [hp] at hprep; cases hprep
    | ok r => exact ⟨r, rfl⟩
  · exact ⟨List.cons_ne_nil _ _, by decide, by decide +kernel⟩

end Project

end MasterSchema
