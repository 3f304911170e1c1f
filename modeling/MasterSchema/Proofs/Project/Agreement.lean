import MasterSchema.Proofs.FileTree.Clearing
import MasterSchema.Proofs.Project.Stages

/-!
# Runs on trees that agree

* What a run reads and checks is decided by what it finds at the schema path and at the id registry
  path (`prepare_congr`).
* On trees that agree at all that the output directory and the files in it are looked for at, the
  output directory is replaced in the same way: with the same result, the same events and trees that
  agree as well (`replaceOutput_sameOn`).
-/

namespace MasterSchema

/-! ## 1. Reading and checking -/

namespace Project

section Reading

variable {fs fs' : FileSystem} {file : Path} (h : fs.find file = fs'.find file)

include h

theorem content_congr {α : Type} (read? : String → DataFormat → Option α) :
    DataFile.content fs file read? = DataFile.content fs' file read? := by
  unfold DataFile.content FileSystem.load FileSystem.readText
  rw [h]

theorem rootTable_congr (key : String) :
    DataFile.rootTable fs file key = DataFile.rootTable fs' file key := by
  unfold DataFile.rootTable
  rw [content_congr h]

theorem idRegistry_congr : DataFile.idRegistry fs file = DataFile.idRegistry fs' file := by
  unfold DataFile.idRegistry DataFile.readIdRegistry
  rw [content_congr h]

theorem isFile_congr : fs.isFile file = fs'.isFile file := by
  unfold FileSystem.isFile
  rw [h]

end Reading

theorem isFile_iff {fs : FileSystem} {p : Path} :
    fs.isFile p = true ↔ ∃ place content, fs.find p = .ok (place, .file content) := by
  unfold FileSystem.isFile
  split
  · rename_i place content hfind
    exact iff_of_true rfl ⟨place, content, hfind⟩
  · rename_i hnot
    refine iff_of_false Bool.false_ne_true fun hsome => ?_
    obtain ⟨place, content, hfind⟩ := hsome
    exact hnot place content hfind

/-- A file that is loaded has been found as a file. -/
theorem isFile_of_load {fs : FileSystem} {file : Path} {text : String}
    (h : fs.load file = .ok text) : fs.isFile file = true := by
  unfold FileSystem.load at h
  split at h
  · rename_i hread
    unfold FileSystem.readText at hread
    split at hread
    · cases hread
    · cases hread
    · rename_i place content hfind
      exact isFile_iff.2 ⟨place, content, hfind⟩
  · cases h
  · cases h

theorem isFile_of_content {fs : FileSystem} {file : Path} {α : Type}
    {read? : String → DataFormat → Option α} {a : α} (h : DataFile.content fs file read? = .ok a) :
    fs.isFile file = true := by
  unfold DataFile.content at h
  split at h
  · cases h
  · split at h
    · cases h
    · rename_i hload
      exact isFile_of_load hload

theorem isFile_of_rootTable {fs : FileSystem} {file : Path} {key : String} {table : Table}
    (h : DataFile.rootTable fs file key = .ok table) : fs.isFile file = true := by
  unfold DataFile.rootTable at h
  split at h
  · cases h
  · rename_i hcontent
    exact isFile_of_content hcontent

theorem isFile_of_readIdRegistry {fs : FileSystem} {file : Path} {ids : IdRegistry}
    (h : DataFile.readIdRegistry fs file = .ok ids) : fs.isFile file = true := by
  unfold DataFile.readIdRegistry at h
  split at h
  · cases h
  · rename_i hcontent
    exact isFile_of_content hcontent

theorem loadRegistry_congr {config : Config} {fs fs' : FileSystem}
    (h : fs.find config.schemaPath = fs'.find config.schemaPath) :
    loadRegistry config fs = loadRegistry config fs' := by
  unfold loadRegistry
  rw [rootTable_congr h]

/-- **A run reads the schema file and the id file alone**, and the id file only if it is a file. -/
theorem prepare_congr {config : Config} {t t' : FileTree} {working : Location}
    (hschema : (FileSystem.mk t working).find config.schemaPath
      = (FileSystem.mk t' working).find config.schemaPath)
    (hids : (FileSystem.mk t working).isFile config.idRegistryPath
      = (FileSystem.mk t' working).isFile config.idRegistryPath)
    (hfile : (FileSystem.mk t working).isFile config.idRegistryPath = true →
      (FileSystem.mk t working).find config.idRegistryPath
        = (FileSystem.mk t' working).find config.idRegistryPath) :
    prepare config ⟨t, working⟩ = prepare config ⟨t', working⟩ := by
  have hchecked (r : Registry) :
      checkDomains config ⟨t, working⟩ r = checkDomains config ⟨t', working⟩ r := by
    unfold checkDomains
    rw [← hids]
    split
    · rename_i hthere
      rw [idRegistry_congr (hfile hthere)]
    · rfl
  unfold prepare
  simp only [loadRegistry_congr hschema, hchecked]

end Project

/-! ## 2. Clearing and writing -/

/-- Two outcomes have the same result and the same events, and leave trees that agree. -/
structure Outcome.SameOn {ε α : Type} (seen : Location → Prop) (first second : Outcome ε α) :
    Prop where
  result : first.result = second.result
  log : first.log = second.log
  tree : first.tree.AgreeOn seen second.tree

namespace Project

variable {config : Config} {seen : Location → Prop} {working : Location} {dir : Path}
  {t t' : FileTree}

theorem clearOutput_sameOn (h : t.AgreeOn seen t') (hdir : dir.Within working seen) :
    (clearOutput ⟨t, working⟩ dir).SameOn seen (clearOutput ⟨t', working⟩ dir) := by
  have hremoved := FileSystem.removeDirectory_sameOn h hdir
  unfold clearOutput
  generalize (FileSystem.mk t working).removeDirectory dir = made at hremoved
  generalize (FileSystem.mk t' working).removeDirectory dir = made' at hremoved
  obtain ⟨result, left⟩ := made
  obtain ⟨result', left'⟩ := made'
  obtain ⟨rfl, hleft⟩ := hremoved
  cases result with
  | ok done => exact ⟨rfl, rfl, hleft⟩
  | error fault => cases fault <;> exact ⟨rfl, rfl, hleft⟩

theorem writeBelow_sameOn (h : t.AgreeOn seen t') {file : Path}
    (hfile : (dir.join file).Within working seen) (text : String) :
    (writeBelow ⟨t, working⟩ dir file text).SameOn seen
      (writeBelow ⟨t', working⟩ dir file text) := by
  have hwritten := FileSystem.writeDeep_sameOn h hfile text.toUTF8
  unfold writeBelow
  generalize (FileSystem.mk t working).writeDeep (dir.join file) text.toUTF8 = made at hwritten
  generalize (FileSystem.mk t' working).writeDeep (dir.join file) text.toUTF8 = made' at hwritten
  obtain ⟨result, left⟩ := made
  obtain ⟨result', left'⟩ := made'
  obtain ⟨rfl, hleft⟩ := hwritten
  cases result with
  | ok done => exact ⟨rfl, rfl, hleft⟩
  | error fault => exact ⟨rfl, rfl, hleft⟩

/-- **Artifacts are written in the same way into trees that agree where their paths lead
through**, and the run stops at the same one if it does. -/
theorem writeArtifacts_sameOn : ∀ {artifacts : List Artifact} {t t' : FileTree},
    t.AgreeOn seen t' → (∀ a ∈ artifacts, (dir.join a.path).Within working seen) →
      (writeArtifacts ⟨t, working⟩ dir artifacts).SameOn seen
        (writeArtifacts ⟨t', working⟩ dir artifacts)
  | [], _, _, h, _ => ⟨rfl, rfl, h⟩
  | a :: rest, t, t', h, hfiles => by
      have hbelow := writeBelow_sameOn h (hfiles a List.mem_cons_self) a.text
      unfold writeArtifacts
      generalize writeBelow ⟨t, working⟩ dir a.path a.text = outcome at hbelow
      generalize writeBelow ⟨t', working⟩ dir a.path a.text = outcome' at hbelow
      obtain ⟨result, left, log⟩ := outcome
      obtain ⟨result', left', log'⟩ := outcome'
      obtain ⟨rfl, rfl, hleft⟩ := hbelow
      cases result with
      | error fault => exact ⟨rfl, rfl, hleft⟩
      | ok path =>
        have hrest := writeArtifacts_sameOn hleft fun b hb => hfiles b (List.mem_cons_of_mem a hb)
        exact ⟨hrest.result, congrArg (log ++ ·) hrest.log, hrest.tree⟩

theorem replaceOutput_sameOn (h : t.AgreeOn seen t') (hdir : config.outputDir.Within working seen)
    {r : Registry} (hfiles : ∀ a ∈ Artifact.generateRegistry config.artifactOptions r,
      (config.outputDir.join a.path).Within working seen) :
    (replaceOutput config ⟨t, working⟩ r).SameOn seen
      (replaceOutput config ⟨t', working⟩ r) := by
  have hcleared := clearOutput_sameOn h hdir
  unfold replaceOutput
  dsimp only
  generalize clearOutput ⟨t, working⟩ config.outputDir = outcome at hcleared
  generalize clearOutput ⟨t', working⟩ config.outputDir = outcome' at hcleared
  obtain ⟨result, left, log⟩ := outcome
  obtain ⟨result', left', log'⟩ := outcome'
  obtain ⟨rfl, rfl, hleft⟩ := hcleared
  cases result with
  | error fault => exact ⟨rfl, rfl, hleft⟩
  | ok done =>
    have hwritten := writeArtifacts_sameOn hleft hfiles
    dsimp only [FileSystem.withTree]
    generalize writeArtifacts ⟨left, working⟩ config.outputDir
      (Artifact.generateRegistry config.artifactOptions r) = written at hwritten
    generalize writeArtifacts ⟨left', working⟩ config.outputDir
      (Artifact.generateRegistry config.artifactOptions r) = written' at hwritten
    obtain ⟨result, last, more⟩ := written
    obtain ⟨result', last', more'⟩ := written'
    obtain ⟨rfl, rfl, hlast⟩ := hwritten
    cases result with
    | error cause => exact ⟨rfl, rfl, hlast⟩
    | ok done => exact ⟨rfl, rfl, hlast⟩

end Project

end MasterSchema
