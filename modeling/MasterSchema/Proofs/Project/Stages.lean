import MasterSchema.FileTree.Difference
import MasterSchema.Project.Run

/-!
# The stages of a run

A run that generates reads and checks first, and touches files only then.

* `Refusal` lists what ends a run before a file is touched; `prepare_eq_error` says that it lists
  all of it.
* `generate_induction` is the induction on the changes a run makes to the file tree: one removal,
  then one deep write for each artifact, with a failure possible after any of them.
* A run fails with a write error or is refused; a run that is refused leaves every file and every
  directory as it was (`tree_eq_of_refused`).
-/

namespace MasterSchema.Project

variable {config : Config} {fs : FileSystem}

/-! ## 1. Reading and checking -/

/-- What ends a run before it touches a file, stage by stage. -/
inductive Refusal (config : Config) (fs : FileSystem) : RunError → Prop where
  /-- The output directory holds an input. -/
  | output {cause : LoadError} (h : config.checkOutput fs.working = .error cause) :
      Refusal config fs (.load cause)
  /-- The schema file is not there, not read, not of a format, or has no root table. -/
  | schemaFile (haccepted : config.checkOutput fs.working = .ok ()) {cause : LoadError}
      (h : DataFile.rootTable fs config.schemaPath config.rootKey = .error cause) :
      Refusal config fs (.load cause)
  /-- An entry of the schema tree is refused, however deep it stands. -/
  | schema (haccepted : config.checkOutput fs.working = .ok ()) {tree : Table}
      (hfile : DataFile.rootTable fs config.schemaPath config.rootKey = .ok tree)
      {cause : SchemaError} (h : (Registry.load config.schemaOptions tree).result = .error cause) :
      Refusal config fs (.schema config.schemaPath cause)
  /-- There is an id file, and it holds no id registry. -/
  | idRegistry (haccepted : config.checkOutput fs.working = .ok ()) {r : Registry}
      (hloaded : (loadRegistry config fs).result = .ok r)
      (hthere : fs.isFile config.idRegistryPath = true) {cause : LoadError}
      (h : DataFile.readIdRegistry fs config.idRegistryPath = .error cause) :
      Refusal config fs (.load cause)

theorem loadRegistry_eq_ok {r : Registry} :
    (loadRegistry config fs).result = .ok r ↔
      ∃ tree, DataFile.rootTable fs config.schemaPath config.rootKey = .ok tree
        ∧ (Registry.load config.schemaOptions tree).result = .ok r := by
  unfold loadRegistry
  split
  · rename_i e he
    rw [he]
    exact ⟨(fun h => nomatch h), fun ⟨_, h, _⟩ => nomatch h⟩
  · rename_i tree ht
    rw [Logged.andThen_eq_ok, ht]
    constructor
    · intro hsome
      obtain ⟨_, hr, h⟩ := hsome
      obtain rfl := Except.ok.inj h
      exact ⟨tree, rfl, Logged.mapError_eq_ok.1 hr⟩
    · intro hsome
      obtain ⟨_, h, hr⟩ := hsome
      obtain rfl := Except.ok.inj h
      exact ⟨r, Logged.mapError_eq_ok.2 hr, rfl⟩

theorem loadRegistry_eq_error {e : RunError} :
    (loadRegistry config fs).result = .error e ↔
      (∃ cause, DataFile.rootTable fs config.schemaPath config.rootKey = .error cause
        ∧ e = .load cause)
      ∨ ∃ tree cause, DataFile.rootTable fs config.schemaPath config.rootKey = .ok tree
        ∧ (Registry.load config.schemaOptions tree).result = .error cause
        ∧ e = .schema config.schemaPath cause := by
  unfold loadRegistry
  split
  · rename_i cause hc
    rw [hc]
    constructor
    · intro h
      exact Or.inl ⟨cause, rfl, (Except.error.inj h).symm⟩
    · intro hor
      rcases hor with ⟨_, h, rfl⟩ | ⟨_, _, h, _⟩
      · rw [Except.error.inj h]; rfl
      · cases h
  · rename_i tree ht
    rw [ht, Logged.andThen_eq_error]
    constructor
    · intro hor
      rcases hor with h | ⟨_, _, h⟩
      · obtain ⟨cause, hc, rfl⟩ := Logged.mapError_eq_error.1 h
        exact Or.inr ⟨tree, cause, rfl, hc, rfl⟩
      · cases h
    · intro hor
      rcases hor with ⟨_, h, _⟩ | ⟨_, cause, h, hc, rfl⟩
      · cases h
      · obtain rfl := Except.ok.inj h
        exact Or.inl (Logged.mapError_eq_error.2 ⟨cause, hc, rfl⟩)

theorem idRegistry_eq_error {file : Path} {cause : LoadError} :
    (DataFile.idRegistry fs file).result = .error cause ↔
      DataFile.readIdRegistry fs file = .error cause := by
  delta DataFile.idRegistry
  cases DataFile.readIdRegistry fs file with
  | error e => exact ⟨fun h => congrArg _ (Except.error.inj h), fun h => congrArg _ (Except.error.inj h)⟩
  | ok ids => exact ⟨(fun h => nomatch h), fun h => nomatch h⟩

theorem checkDomains_eq_error {r : Registry} {e : RunError} :
    (checkDomains config fs r).result = .error e ↔
      fs.isFile config.idRegistryPath = true
        ∧ ∃ cause, DataFile.readIdRegistry fs config.idRegistryPath = .error cause
          ∧ e = .load cause := by
  unfold checkDomains
  split
  · rename_i hthere
    refine Logged.andThen_eq_error.trans ⟨?_, ?_⟩
    · intro hor
      rcases hor with h | ⟨_, _, h⟩
      · obtain ⟨cause, hc, he⟩ := Logged.mapError_eq_error.1 h
        exact ⟨hthere, cause, idRegistry_eq_error.1 hc, he⟩
      · cases h
    · intro hsome
      obtain ⟨_, cause, hc, he⟩ := hsome
      exact Or.inl (Logged.mapError_eq_error.2 ⟨cause, idRegistry_eq_error.2 hc, he⟩)
  · rename_i hmissing
    exact ⟨(fun h => nomatch h), fun ⟨h, _⟩ => absurd h hmissing⟩

theorem prepare_eq_ok {r : Registry} :
    (prepare config fs).result = .ok r ↔
      config.checkOutput fs.working = .ok () ∧ (loadRegistry config fs).result = .ok r
        ∧ (checkDomains config fs r).result = .ok () := by
  unfold prepare
  split
  · rename_i e he
    rw [he]
    exact ⟨(fun h => nomatch h), fun ⟨h, _⟩ => nomatch h⟩
  · rename_i hc
    rw [hc, Logged.andThen_eq_ok]
    constructor
    · intro hsome
      obtain ⟨_, hl, h⟩ := hsome
      obtain ⟨_, hd, h⟩ := Logged.andThen_eq_ok.1 h
      obtain rfl := Except.ok.inj h
      exact ⟨rfl, hl, hd⟩
    · intro hsome
      obtain ⟨_, hl, hd⟩ := hsome
      exact ⟨r, hl, Logged.andThen_eq_ok.2 ⟨(), hd, rfl⟩⟩

/-- **A run is refused for one of the listed reasons, and for no other.** -/
theorem prepare_eq_error {e : RunError} :
    (prepare config fs).result = .error e ↔ Refusal config fs e := by
  unfold prepare
  split
  · rename_i cause hc
    constructor
    · intro h
      obtain rfl := Except.error.inj h
      exact .output hc
    · intro h
      cases h with
      | output h =>
        obtain rfl := Except.error.inj (hc.symm.trans h)
        rfl
      | schemaFile haccepted => cases hc.symm.trans haccepted
      | schema haccepted => cases hc.symm.trans haccepted
      | idRegistry haccepted => cases hc.symm.trans haccepted
  · rename_i haccepted
    rw [Logged.andThen_eq_error]
    constructor
    · intro hor
      rcases hor with h | ⟨r, hr, h⟩
      · rcases loadRegistry_eq_error.1 h with ⟨cause, hc, rfl⟩ | ⟨tree, cause, ht, hc, rfl⟩
        · exact .schemaFile haccepted hc
        · exact .schema haccepted ht hc
      · rcases Logged.andThen_eq_error.1 h with h | ⟨_, _, h⟩
        · obtain ⟨hthere, cause, hc, rfl⟩ := checkDomains_eq_error.1 h
          exact .idRegistry haccepted hr hthere hc
        · cases h
    · intro h
      cases h with
      | output h => cases haccepted.symm.trans h
      | schemaFile _ h => exact Or.inl (loadRegistry_eq_error.2 (Or.inl ⟨_, h, rfl⟩))
      | schema _ hfile h => exact Or.inl (loadRegistry_eq_error.2 (Or.inr ⟨_, _, hfile, h, rfl⟩))
      | idRegistry _ hloaded hthere h =>
        exact Or.inr ⟨_, hloaded, Logged.andThen_eq_error.2
          (Or.inl (checkDomains_eq_error.2 ⟨hthere, _, h, rfl⟩))⟩

theorem not_write_of_refusal {e : RunError} (h : Refusal config fs e) (path : Path)
    (fault : FileFault) : e ≠ .write path fault := by
  cases h <;> exact fun he => nomatch he

/-! ## 2. Writing -/

theorem clearOutput_tree (fs : FileSystem) (dir : Path) :
    (clearOutput fs dir).tree = (fs.removeDirectory dir).tree := by
  unfold clearOutput
  split <;> (rename_i h; rw [h])

/-- What the loop does with its first artifact: it fails there and keeps what the write left, or it
goes on from there. -/
theorem writeArtifacts_cons (fs : FileSystem) (dir : Path) (a : Artifact) (rest : List Artifact) :
    (∃ e, (fs.writeDeep (dir.join a.path) a.text.toUTF8).result = .error e
      ∧ (writeArtifacts fs dir (a :: rest)).result = .error (.write (dir.join a.path) e)
      ∧ (writeArtifacts fs dir (a :: rest)).tree
        = (fs.writeDeep (dir.join a.path) a.text.toUTF8).tree)
    ∨ ∃ t, fs.writeDeep (dir.join a.path) a.text.toUTF8 = ⟨.ok (), t⟩
      ∧ (writeArtifacts fs dir (a :: rest)).result
        = (writeArtifacts (fs.withTree t) dir rest).result
      ∧ (writeArtifacts fs dir (a :: rest)).tree
        = (writeArtifacts (fs.withTree t) dir rest).tree := by
  generalize ho : writeArtifacts fs dir (a :: rest) = outcome
  unfold writeArtifacts writeBelow at ho
  cases hw : fs.writeDeep (dir.join a.path) a.text.toUTF8 with
  | mk result t =>
    rw [hw] at ho
    cases result with
    | error e => exact Or.inl ⟨e, rfl, ho ▸ rfl, ho ▸ rfl⟩
    | ok done => exact Or.inr ⟨t, rfl, ho ▸ rfl, ho ▸ rfl⟩

/-- A property of trees that every deep write of an artifact keeps is kept by the whole loop. -/
theorem writeArtifacts_induction {motive : FileTree → Prop} {dir : Path} :
    ∀ {artifacts : List Artifact} (fs : FileSystem),
      (∀ t, ∀ a ∈ artifacts, motive t →
        motive ((fs.withTree t).writeDeep (dir.join a.path) a.text.toUTF8).tree) →
      motive fs.tree → motive (writeArtifacts fs dir artifacts).tree
  | [], _, _, h => h
  | a :: rest, fs, hwrite, h => by
      have ha : motive (fs.writeDeep (dir.join a.path) a.text.toUTF8).tree :=
        hwrite fs.tree a List.mem_cons_self h
      rcases writeArtifacts_cons fs dir a rest with ⟨_, _, _, htree⟩ | ⟨t, hdeep, _, htree⟩
      · rw [htree]
        exact ha
      · rw [htree]
        rw [hdeep] at ha
        exact writeArtifacts_induction (fs.withTree t)
          (fun t' b hb => hwrite t' b (List.mem_cons_of_mem a hb)) ha

theorem writeArtifacts_error {dir : Path} : ∀ (artifacts : List Artifact) (fs : FileSystem)
    {e : RunError}, (writeArtifacts fs dir artifacts).result = .error e →
      ∃ path fault, e = .write path fault
  | [], fs, e, h => by
      unfold writeArtifacts at h
      cases h
  | a :: rest, fs, e, h => by
      rcases writeArtifacts_cons fs dir a rest with ⟨fault, _, hresult, _⟩ | ⟨t, _, hresult, _⟩
      · exact ⟨_, fault, Except.error.inj (h.symm.trans hresult)⟩
      · exact writeArtifacts_error rest (fs.withTree t) (hresult.symm.trans h)

/-- What a run does to the files: the removal fails and ends it, or the artifacts are written into
what the removal leaves. -/
theorem replaceOutput_cases (config : Config) (fs : FileSystem) (r : Registry) :
    (∃ e, (clearOutput fs config.outputDir).result = .error e
      ∧ (replaceOutput config fs r).result = .error (.write config.outputDir e)
      ∧ (replaceOutput config fs r).tree = (fs.removeDirectory config.outputDir).tree)
    ∨ ∃ run, (clearOutput fs config.outputDir).result = .ok ()
      ∧ run = writeArtifacts (fs.withTree (fs.removeDirectory config.outputDir).tree)
        config.outputDir (Artifact.generateRegistry config.artifactOptions r)
      ∧ (replaceOutput config fs r).result = run.result.map (fun () =>
        ⟨r.size, (Artifact.generateRegistry config.artifactOptions r).map (·.path)⟩)
      ∧ (replaceOutput config fs r).tree = run.tree := by
  rw [← clearOutput_tree]
  unfold replaceOutput
  dsimp only
  cases clearOutput fs config.outputDir with
  | mk cleared t log =>
    cases cleared with
    | error e => exact Or.inl ⟨e, rfl, rfl, rfl⟩
    | ok done =>
      refine Or.inr ⟨_, rfl, rfl, ?_⟩
      dsimp only
      cases writeArtifacts (fs.withTree t) config.outputDir
          (Artifact.generateRegistry config.artifactOptions r) with
      | mk result t' more => cases result <;> exact ⟨rfl, rfl⟩

theorem replaceOutput_induction {motive : FileTree → Prop} {r : Registry}
    (hclear : motive (fs.removeDirectory config.outputDir).tree)
    (hwrite : ∀ t, ∀ a ∈ Artifact.generateRegistry config.artifactOptions r, motive t →
      motive ((fs.withTree t).writeDeep (config.outputDir.join a.path) a.text.toUTF8).tree) :
    motive (replaceOutput config fs r).tree := by
  rcases replaceOutput_cases config fs r with ⟨_, _, _, htree⟩ | ⟨_, _, rfl, _, htree⟩
  · rw [htree]
    exact hclear
  · rw [htree]
    exact writeArtifacts_induction (fs.withTree _) hwrite hclear

theorem replaceOutput_error {r : Registry} {e : RunError}
    (h : (replaceOutput config fs r).result = .error e) : ∃ path fault, e = .write path fault := by
  rcases replaceOutput_cases config fs r with ⟨fault, _, hresult, _⟩ | ⟨run, _, hrun, hresult, _⟩
  · exact ⟨_, fault, Except.error.inj (h.symm.trans hresult)⟩
  · cases hr : run.result with
    | error cause =>
      rw [hresult, hr] at h
      obtain rfl : cause = e := Except.error.inj h
      exact writeArtifacts_error _ _ (hrun ▸ hr)
    | ok done =>
      rw [hresult, hr] at h
      cases h

/-! ## 3. The whole run -/

theorem generate_of_refused {e : RunError} (h : (prepare config fs).result = .error e) :
    (generate config fs).result = .error e ∧ (generate config fs).tree = fs.tree := by
  unfold generate
  split
  · rename_i he
    rw [he] at h
    exact ⟨congrArg _ (Except.error.inj h), rfl⟩
  · rename_i hr
    rw [hr] at h
    cases h

theorem generate_of_prepared {r : Registry} (h : (prepare config fs).result = .ok r) :
    (generate config fs).result = (replaceOutput config fs r).result
      ∧ (generate config fs).tree = (replaceOutput config fs r).tree := by
  unfold generate
  split
  · rename_i he
    rw [he] at h
    cases h
  · rename_i hr
    rw [hr] at h
    rw [Except.ok.inj h]
    exact ⟨Outcome.after_result _ _, Outcome.after_tree _ _⟩

theorem generate_of_unaccepted {cause : LoadError}
    (h : config.checkOutput fs.working = .error cause) :
    generate config fs = ⟨.error (.load cause), fs.tree, []⟩ := by
  have hprep : prepare config fs = ⟨.error (.load cause), []⟩ := by
    delta prepare
    rw [h]
    rfl
  delta generate
  rw [hprep]

theorem generate_of_unloaded {e : RunError} (h : (loadRegistry config fs).result = .error e)
    (haccepted : config.checkOutput fs.working = .ok ()) :
    generate config fs = ⟨.error e, fs.tree, (loadRegistry config fs).log⟩ := by
  have hprep : prepare config fs = ⟨.error e, (loadRegistry config fs).log⟩ := by
    delta prepare Logged.andThen
    rw [haccepted, h]
  delta generate
  rw [hprep]

/-- A run that gets past the check of the domains has logged the loading and the check. -/
theorem generate_of_loaded {r : Registry} (hloaded : (loadRegistry config fs).result = .ok r)
    (haccepted : config.checkOutput fs.working = .ok ())
    (hchecked : (checkDomains config fs r).result = .ok ()) :
    generate config fs = .after ((loadRegistry config fs).log ++ (checkDomains config fs r).log)
      (replaceOutput config fs r) := by
  have hprep : prepare config fs
      = ⟨.ok r, (loadRegistry config fs).log ++ ((checkDomains config fs r).log ++ [])⟩ := by
    delta prepare Logged.andThen
    rw [haccepted, hloaded]
    dsimp only
    rw [hchecked]
    rfl
  delta generate
  rw [hprep, List.append_nil]

/-- **What holds before a run holds after it, if the removal of the output directory and every deep
write of an artifact keep it.** Nothing has to be shown of a run that is refused. -/
theorem generate_induction {motive : FileTree → Prop} (hstart : motive fs.tree)
    (hclear : ∀ r, (prepare config fs).result = .ok r →
      motive (fs.removeDirectory config.outputDir).tree)
    (hwrite : ∀ r, (prepare config fs).result = .ok r →
      ∀ t, ∀ a ∈ Artifact.generateRegistry config.artifactOptions r, motive t →
        motive ((fs.withTree t).writeDeep (config.outputDir.join a.path) a.text.toUTF8).tree) :
    motive (generate config fs).tree := by
  cases hp : (prepare config fs).result with
  | error e => rw [(generate_of_refused hp).2]; exact hstart
  | ok r =>
    rw [(generate_of_prepared hp).2]
    exact replaceOutput_induction (hclear r hp) (hwrite r hp)

/-- **A run fails otherwise than in writing exactly if it is refused.** -/
theorem refusal_iff {e : RunError} :
    Refusal config fs e ↔
      (generate config fs).result = .error e ∧ ∀ path fault, e ≠ .write path fault := by
  constructor
  · intro h
    exact ⟨(generate_of_refused (prepare_eq_error.2 h)).1, not_write_of_refusal h⟩
  · intro h
    obtain ⟨hresult, hwrite⟩ := h
    cases hp : (prepare config fs).result with
    | error cause =>
      obtain rfl := Except.error.inj ((generate_of_refused hp).1.symm.trans hresult)
      exact prepare_eq_error.1 hp
    | ok r =>
      rw [(generate_of_prepared hp).1] at hresult
      obtain ⟨path, fault, he⟩ := replaceOutput_error hresult
      exact absurd he (hwrite path fault)

/-- **A run that fails otherwise than in writing leaves the file tree as it was.** It was then
refused for one of the listed reasons. -/
theorem tree_eq_of_refused {e : RunError} (h : (generate config fs).result = .error e)
    (hwrite : ∀ path fault, e ≠ .write path fault) :
    (generate config fs).tree = fs.tree ∧ Refusal config fs e := by
  have hrefusal : Refusal config fs e := refusal_iff.2 ⟨h, hwrite⟩
  exact ⟨(generate_of_refused (prepare_eq_error.2 hrefusal)).2, hrefusal⟩

/-- A project with a file of an earlier run, whose schema has a field of an unknown type below two
namespaces. -/
def misdeclared : FileSystem :=
  ⟨.ofEntries [(["schema"], .directory), (["schema", "master"], .directory),
    (["schema", "master", "masterdata.toml"], .file
      "[masterdata.ui.text.md_Line]\ndata_type_name = \"Line\"\nfield.id = \"text\"\n".toUTF8),
    (["md_header"], .directory), (["md_header", "old.hpp"], .file "old".toUTF8)], []⟩

theorem tree_eq_of_misdeclared :
    (generate {} misdeclared).tree = misdeclared.tree ∧ Refusal {} misdeclared
      (.schema ⟨"././schema/master/masterdata.toml"⟩
        (.inDataType "Line" ⟨["ui", "text"]⟩ (.unknownBase "id" "text"))) :=
  tree_eq_of_refused (by decide +kernel) fun _ _ h => nomatch h

end MasterSchema.Project
