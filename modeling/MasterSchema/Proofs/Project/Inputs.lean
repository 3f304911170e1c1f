import MasterSchema.Proofs.Artifact.Paths
import MasterSchema.Proofs.FileTree.Effects
import MasterSchema.Proofs.Project.Stages

/-!
# What a run leaves alone

A run takes away what lies below its output directory, and writes files that have the extensions of
artifacts. So a file with the extension of a data file stays if the output directory does not lie
above it (`get?_generate`).

* The guard compares folded paths (`checkOutput_spec`), and the removal and the writes go where the
  paths fold to, whatever the tree (`Path.leadsToFold`).
* Therefore the schema file and the id file stay, wherever they are and however the paths are
  spelled (`input_survives`).
-/

namespace MasterSchema

/-! ## 1. Names of data files -/

/-- A name with the extension of a data file. -/
def IsDataName (name : String) : Prop :=
  ((Path.cutAtDot name).2.bind DataFormat.ofExtension?).isSome = true

/-- A path with a format ends in a name with the extension of that format. -/
theorem getLast?_of_ofPath? {p : Path} (h : (DataFormat.ofPath? p).isSome = true) :
    ∃ name, p.steps.getLast? = some (.name name) ∧ IsDataName name := by
  unfold DataFormat.ofPath? Path.extension Path.fileName at h
  split at h
  · rename_i name hn
    exact ⟨name, Path.getLast?_steps hn, h⟩
  · cases h

/-- No artifact has the extension of a data file. -/
theorem not_isDataName_artifact (front : String) (kind : ArtifactKind) :
    ¬ IsDataName (front ++ "." ++ Artifact.extension kind) := by
  unfold IsDataName
  rw [Path.cutAtDot_append front (by cases kind <;> decide)]
  split
  · exact Bool.false_ne_true
  · cases kind <;> decide

/-- No artifact is written to a location with the name of a data file. -/
theorem fold?_artifact_ne {options : ArtifactOptions} {r : Registry}
    (hnamed : ∀ d ∈ r.types, d.Named) {a : Artifact} (ha : a ∈ Artifact.generateRegistry options r)
    {name : String} (hname : IsDataName name) (base : Path) (working dir : Location) :
    (base.join a.path).fold? working ≠ some (dir ++ [name]) := by
  obtain ⟨d, hd, kind, rfl⟩ := Artifact.mem_generateRegistry.1 ha
  obtain ⟨front, hlast⟩ := Artifact.getLast?_steps_pathOf (hnamed d hd) kind
  obtain ⟨dir', hp⟩ := Path.fold?_of_getLast? (Path.getLast?_steps_join hlast base) working
  intro h
  have heq := Option.some.inj (hp.symm.trans h)
  have hlast' := List.singleton_inj.1 (List.append_inj' heq rfl).2
  exact not_isDataName_artifact front kind (hlast' ▸ hname)

namespace Project

variable {config : Config} {fs : FileSystem}

/-! ## 2. What the checks say -/

theorem content_eq_ok {α : Type} {file : Path} {read? : String → DataFormat → Option α} {a : α}
    (h : DataFile.content fs file read? = .ok a) : (DataFormat.ofPath? file).isSome = true := by
  unfold DataFile.content DataFile.formatOf at h
  cases hf : DataFormat.ofPath? file with
  | none => rw [hf] at h; cases h
  | some format => rfl

theorem rootTable_eq_ok {file : Path} {key : String} {table : Table}
    (h : DataFile.rootTable fs file key = .ok table) : (DataFormat.ofPath? file).isSome = true := by
  unfold DataFile.rootTable at h
  split at h
  · cases h
  · rename_i hc
    exact content_eq_ok hc

theorem readIdRegistry_eq_ok {file : Path} {ids : IdRegistry}
    (h : DataFile.readIdRegistry fs file = .ok ids) : (DataFormat.ofPath? file).isSome = true := by
  unfold DataFile.readIdRegistry at h
  split at h
  · cases h
  · rename_i hc
    exact content_eq_ok hc

/-- The files that a run has read before it writes have the extensions of data files. -/
theorem format_of_prepared {r : Registry} (h : (prepare config fs).result = .ok r) :
    (DataFormat.ofPath? config.schemaPath).isSome = true
      ∧ (fs.isFile config.idRegistryPath = true →
        (DataFormat.ofPath? config.idRegistryPath).isSome = true) := by
  obtain ⟨_, hl, hd⟩ := prepare_eq_ok.1 h
  obtain ⟨_, ht, _⟩ := loadRegistry_eq_ok.1 hl
  refine ⟨rootTable_eq_ok ht, fun hthere => ?_⟩
  cases hread : DataFile.readIdRegistry fs config.idRegistryPath with
  | ok ids => exact readIdRegistry_eq_ok hread
  | error cause =>
    have hfail : (checkDomains config fs r).result = .error (.load cause) :=
      checkDomains_eq_error.2 ⟨hthere, cause, hread, rfl⟩
    cases hfail.symm.trans hd

theorem named_of_prepared {r : Registry} (h : (prepare config fs).result = .ok r) :
    ∀ d ∈ r.types, d.Named := by
  obtain ⟨_, hl, _⟩ := prepare_eq_ok.1 h
  obtain ⟨_, _, hr⟩ := loadRegistry_eq_ok.1 hl
  exact Registry.named_of_load hr

theorem foldsBelow_eq_false {working : Location} {outer inner : Path}
    (h : Path.foldsBelow working outer inner = false) :
    ∃ out, outer.fold? working = some out
      ∧ ∀ place, inner.fold? working = some place → ¬ out <+: place := by
  unfold Path.foldsBelow at h
  split at h
  · cases h
  · rename_i out ho hi
    exact ⟨out, ho, fun place hp => nomatch hi.symm.trans hp⟩
  · rename_i out place ho hi
    refine ⟨out, ho, fun other hp hpre => ?_⟩
    obtain rfl := Option.some.inj (hi.symm.trans hp)
    exact Bool.eq_false_iff.1 h (List.isPrefixOf_iff_prefix.2 hpre)

/-- **An accepted output directory folds to a location that no input folds to or below.** -/
theorem checkOutput_spec {working : Location} (h : config.checkOutput working = .ok ()) :
    ∃ out, config.outputDir.fold? working = some out ∧ ∀ input place,
      (config.inputPath input).fold? working = some place → ¬ out <+: place := by
  unfold Config.checkOutput at h
  split at h
  · cases h
  · rename_i hnone
    have hall : ∀ input, config.covers working input = false := fun input =>
      Bool.eq_false_iff.2 (List.find?_eq_none.1 hnone input (by cases input <;> decide))
    obtain ⟨out, ho, _⟩ := foldsBelow_eq_false (hall .schema)
    refine ⟨out, ho, fun input place hp => ?_⟩
    obtain ⟨out', ho', hinput⟩ := foldsBelow_eq_false (hall input)
    obtain rfl := Option.some.inj (ho.symm.trans ho')
    exact hinput place hp

/-- An input that is found does not lie where the output directory is found, nor below. -/
theorem not_below_output {r : Registry} (hprep : (prepare config fs).result = .ok r)
    {input : Input} {place : Location} {e : Entry}
    (h : fs.find (config.inputPath input) = .ok (place, e)) :
    ∀ out, fs.find config.outputDir = .ok (out, .directory) → ¬ out <+: place := by
  intro out ho
  obtain ⟨out', ho', hinput⟩ := checkOutput_spec (prepare_eq_ok.1 hprep).1
  obtain rfl := Option.some.inj (ho'.symm.trans (FileSystem.find_spec ho).1)
  exact hinput input place (FileSystem.find_spec h).1

/-! ## 3. Files that stay -/

/-- A deep write of an artifact does nothing to a file with the name of a data file. -/
theorem writeDeep_artifact_iff {r : Registry} (hprep : (prepare config fs).result = .ok r)
    {a : Artifact} (ha : a ∈ Artifact.generateRegistry config.artifactOptions r)
    {dir : Location} {name : String} (hname : IsDataName name) (t : FileTree)
    (content : ByteArray) :
    ((fs.withTree t).writeDeep (config.outputDir.join a.path) a.text.toUTF8).tree.get?
        (dir ++ [name]) = some (.file content) ↔
      t.get? (dir ++ [name]) = some (.file content) :=
  (fs.withTree t).writeDeep_file_iff
    (fold?_artifact_ne (named_of_prepared hprep) ha hname config.outputDir fs.working dir)
    content a.text.toUTF8

/-- **A data file stays unless the output directory is found above it.** -/
theorem get?_generate {dir : Location} {name : String} (hname : IsDataName name)
    {content : ByteArray} (h : fs.tree.get? (dir ++ [name]) = some (.file content))
    (hout : ∀ r, (prepare config fs).result = .ok r → ∀ out,
      fs.find config.outputDir = .ok (out, .directory) → ¬ out <+: dir ++ [name]) :
    (generate config fs).tree.get? (dir ++ [name]) = some (.file content) := by
  refine generate_induction (motive := fun t => t.get? (dir ++ [name]) = some (.file content))
    h ?_ ?_
  · intro r hprep
    rw [FileSystem.removeDirectory_outside (hout r hprep)]
    exact h
  · intro r hprep t a ha ht
    exact (writeDeep_artifact_iff hprep ha hname t content).2 ht

end Project

/-- A path leads where it folds to: what is found is found there, and what is made or removed is
made or removed there. -/
structure Path.LeadsToFold (working : Location) (p : Path) : Prop where
  find : ∀ t place e, FileSystem.find ⟨t, working⟩ p = .ok (place, e) →
    p.fold? working = some place
  target : ∀ t dir name slashed, FileSystem.target ⟨t, working⟩ p = .ok (.named dir name slashed) →
    p.fold? working = some (dir ++ [name])

/-- **Every path leads where it folds to, or nowhere.** -/
theorem Path.leadsToFold (working : Location) (p : Path) : p.LeadsToFold working where
  find _ _ _ h := (FileSystem.find_spec h).1
  target _ _ _ _ h := (FileSystem.target_spec h).1

namespace Project

variable {config : Config} {fs : FileSystem}

/-- **Whatever a run returns, the schema file and the id file stay where they were found, with the
bytes they had.** The guard has compared the locations that the removal and the writes go to. -/
theorem input_survives {input : Input} (hinput : input = .schema ∨ input = .idRegistry)
    {place : Location} {content : ByteArray}
    (h : fs.find (config.inputPath input) = .ok (place, .file content)) :
    (generate config fs).tree.get? place = some (.file content)
      ∧ (config.inputPath input).LeadsToFold fs.working
      ∧ config.outputDir.LeadsToFold fs.working
      ∧ ∀ file, (config.outputDir.join file).LeadsToFold fs.working := by
  refine ⟨?_, Path.leadsToFold _ _, Path.leadsToFold _ _, fun _ => Path.leadsToFold _ _⟩
  obtain ⟨hfold, hget⟩ := FileSystem.find_spec h
  cases hp : (prepare config fs).result with
  | error e =>
    rw [(generate_of_refused hp).2]
    exact hget
  | ok r =>
    obtain ⟨hschema, hids⟩ := format_of_prepared hp
    have hformat : (DataFormat.ofPath? (config.inputPath input)).isSome = true := by
      rcases hinput with rfl | rfl
      · exact hschema
      · refine hids ?_
        unfold FileSystem.isFile
        rw [show fs.find config.idRegistryPath = .ok (place, .file content) from h]
    obtain ⟨name, hlast, hname⟩ := getLast?_of_ofPath? hformat
    obtain ⟨dir, hp'⟩ := Path.fold?_of_getLast? hlast fs.working
    obtain rfl := Option.some.inj (hp'.symm.trans hfold)
    exact get?_generate hname hget fun r' hr' => not_below_output hr' h

/-- A project whose schema path leads up and down again, its output directory beside the schema
file. -/
def respelled : Config × FileSystem :=
  ({ layout := { root := ⟨"./app"⟩, schema := ⟨"out/../../app/./schema.toml"⟩, output := ⟨"out"⟩ } },
    ⟨.ofEntries [(["app"], .directory), (["app", "out"], .directory),
      (["app", "out", "old.hpp"], .file "old".toUTF8), (["app", "schema.toml"], .file
        "[masterdata.md_Line]\ndata_type_name = \"Line\"\nfield.id = \"int:PKey\"\n".toUTF8)],
      []⟩)

theorem schema_survives_respelled :
    (generate respelled.1 respelled.2).tree.get? ["app", "schema.toml"] = some (.file
        "[masterdata.md_Line]\ndata_type_name = \"Line\"\nfield.id = \"int:PKey\"\n".toUTF8)
      ∧ (respelled.1.inputPath .schema).LeadsToFold respelled.2.working
      ∧ respelled.1.outputDir.LeadsToFold respelled.2.working
      ∧ ∀ file, (respelled.1.outputDir.join file).LeadsToFold respelled.2.working :=
  input_survives (Or.inl rfl) (by decide +kernel)

end Project

end MasterSchema
