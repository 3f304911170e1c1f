import MasterSchema.Proofs.Project.Agreement
import MasterSchema.Proofs.Project.Replacement

/-!
# Running once more

What a run generates does not depend on what an earlier run has left in the output directory
(`forgetful_of_direct`).

* On trees that are equal outside the output directory a run comes to the same. What it reads first
  is found outside; the output directory can be cleared in both trees or in neither, for what could
  prevent it lies above; and when it is cleared the trees are equal (`generate_outside`).
* The tree that a run leaves may have directories above the output directory that were missing. So
  the second run is compared with the first one write by write: what it writes into lies between the
  tree that the first run wrote into and the tree that it left (`writeArtifacts_again`).
* That needs the files to lie below the output directory. A class prefix can lead out of it, and the
  second run can then read what the first one has written (`stray_refused`).
-/

namespace MasterSchema

/-! ## 1. The output directory -/

/-- The paths that a run reads and the one that it clears are spelled without `..`, and the text of
the output path ends in an ordinary name. -/
structure Config.Direct (config : Config) : Prop where
  output : Component.up ∉ config.outputDir.components
  schema : Component.up ∉ config.schemaPath.components
  idRegistry : Component.up ∉ config.idRegistryPath.components
  named : ∃ name, config.layout.output.parts.getLast? = some name
    ∧ Path.component? name = some (.name name)

namespace Config.Direct

variable {config : Config} (h : config.Direct)

include h

theorem last : ∃ name, config.outputDir.parts.getLast? = some name
    ∧ Path.component? name = some (.name name) := by
  obtain ⟨name, hlast, hname⟩ := h.named
  exact ⟨name, Path.getLast?_parts_join hlast _, hname⟩

theorem steps : Component.up ∉ config.outputDir.steps := Path.up_not_mem_steps h.output

theorem exists_place (working : Location) : ∃ out, config.outputDir.fold? working = some out := by
  obtain ⟨name, hlast, hname⟩ := h.last
  obtain ⟨front, hfront⟩ := List.getLast?_eq_some_iff.1 hlast
  have hsteps : config.outputDir.steps.getLast? = some (.name name) := by
    rw [Path.steps, hfront, List.filterMap_append, List.filterMap_cons_some hname]
    exact List.getLast?_concat
  obtain ⟨dir, hfold⟩ := Path.fold?_of_getLast? hsteps working
  exact ⟨_, hfold⟩

end Config.Direct

namespace Project

variable {config : Config} {fs : FileSystem} {out : Location}

/-- The directory to be cleared is there, or nothing is. -/
def Clearable (fs : FileSystem) (dir : Path) : Prop :=
  fs.find dir = .error .notFound ∨ ∃ place, fs.find dir = .ok (place, .directory)

theorem clearable_of_ok {dir : Path} (h : (clearOutput fs dir).result = .ok ()) :
    Clearable fs dir := by
  unfold clearOutput at h
  cases hf : fs.find dir with
  | ok found =>
    obtain ⟨place, e⟩ := found
    cases e with
    | directory => exact Or.inr ⟨place, hf⟩
    | file content =>
      rw [FileSystem.removeDirectory_of_file hf] at h
      cases h
  | error e =>
    rw [FileSystem.removeDirectory_of_error hf] at h
    cases e with
    | notFound => exact Or.inl hf
    | _ => cases h

/-- Where no file stands, a directory that cannot be cleared is not found for a reason. -/
theorem clearable_or (fs : FileSystem) {dir : Path} (hout : dir.fold? fs.working = some out)
    (hfile : ∀ content, fs.tree.get? out ≠ some (.file content)) :
    Clearable fs dir ∨ ∃ e, e ≠ .notFound ∧ fs.find dir = .error e := by
  cases hfind : fs.find dir with
  | ok found =>
    obtain ⟨place, e⟩ := found
    cases e with
    | directory => exact Or.inl (Or.inr ⟨place, hfind⟩)
    | file content =>
      obtain ⟨hplace, hget⟩ := FileSystem.find_spec hfind
      obtain rfl := Option.some.inj (hout.symm.trans hplace)
      exact absurd hget (hfile content)
  | error e =>
    by_cases he : e = .notFound
    · exact Or.inl (Or.inl (he ▸ hfind))
    · exact Or.inr ⟨e, he, rfl⟩

/-- There is nothing wrong with the text of the path then. -/
theorem fault?_of_clearable {dir : Path} {working : Location}
    (hout : dir.fold? working = some out) (h : Clearable fs dir) : dir.fault? = none := by
  rcases h with hnone | ⟨place, hfind⟩
  · cases hfault : dir.fault? with
    | none => rfl
    | some e =>
      have hfind : fs.find dir = .error e := by simp only [FileSystem.find, hfault]
      obtain rfl := Except.error.inj (hfind.symm.trans hnone)
      exact absurd (Path.text_eq_of_notFound hfault) (Path.text_ne_of_fold? hout)
  · exact (FileSystem.find_directory_iff.1 hfind).1

theorem noFile_of_clearable (hup : Component.up ∉ config.outputDir.steps)
    (hout : config.outputDir.fold? fs.working = some out) (h : Clearable fs config.outputDir)
    (content : ByteArray) : fs.tree.get? out ≠ some (.file content) := by
  intro hget
  rcases h with hnone | ⟨place, hfind⟩
  · cases hget.symm.trans (FileSystem.get?_eq_none_of_notFound hup hnone hout)
  · obtain ⟨hplace, hdir⟩ := FileSystem.find_spec hfind
    obtain rfl := Option.some.inj (hout.symm.trans hplace)
    cases hget.symm.trans hdir

theorem clearOutput_of_error {dir : Path} {e : FileFault} (h : fs.find dir = .error e)
    (hfault : e ≠ .notFound) : (clearOutput fs dir).result = .error e := by
  unfold clearOutput
  rw [FileSystem.removeDirectory_of_error h]
  cases e with
  | notFound => exact absurd rfl hfault
  | _ => rfl

/-- **A directory that can be cleared is taken away with all below it.** -/
theorem cleared_of_clearable (h : config.Direct) (hclear : Clearable fs config.outputDir)
    (hout : config.outputDir.fold? fs.working = some out) :
    (clearOutput fs config.outputDir).result = .ok ()
      ∧ Cleared out fs.tree (fs.removeDirectory config.outputDir).tree := by
  unfold clearOutput
  rcases hclear with hnone | ⟨place, hfind⟩
  · rw [FileSystem.removeDirectory_of_error hnone]
    refine ⟨rfl, fun other => ?_⟩
    split
    · rename_i hbelow
      exact FileTree.get?_eq_none_below hbelow
        (FileSystem.get?_eq_none_of_notFound h.steps hnone hout)
    · rfl
  · obtain rfl := Option.some.inj (hout.symm.trans (FileSystem.find_spec hfind).1)
    obtain ⟨name, hlast, hname⟩ := h.last
    have hne : name ≠ "" := by
      rintro rfl
      cases hname
    obtain ⟨t, hremoved, hcleared⟩ := FileSystem.removeDirectory_of_find h.steps
      (Path.getLast?_namedParts hlast hne) hname hfind
    rw [hremoved]
    exact ⟨rfl, hcleared⟩

/-- What writing all artifacts of a registry comes to when the output directory is cleared. -/
def refill (config : Config) (fs : FileSystem) (r : Registry) : Outcome RunError Unit :=
  writeArtifacts (fs.withTree (fs.removeDirectory config.outputDir).tree) config.outputDir
    (Artifact.generateRegistry config.artifactOptions r)

theorem replaceOutput_of_error {r : Registry} {e : FileFault}
    (h : (clearOutput fs config.outputDir).result = .error e) :
    (replaceOutput config fs r).result = .error (.write config.outputDir e) := by
  rcases replaceOutput_cases config fs r with ⟨e', hclear, hresult, _⟩ | ⟨_, hclear, _⟩
  · obtain rfl := Except.error.inj (h.symm.trans hclear)
    exact hresult
  · cases h.symm.trans hclear

theorem replaceOutput_of_ok {r : Registry} (h : (clearOutput fs config.outputDir).result = .ok ()) :
    (replaceOutput config fs r).result = (refill config fs r).result.map (fun () =>
        ⟨r.size, (Artifact.generateRegistry config.artifactOptions r).map (·.path)⟩)
      ∧ (replaceOutput config fs r).tree = (refill config fs r).tree := by
  rcases replaceOutput_cases config fs r with ⟨_, hclear, _⟩ | ⟨run, _, rfl, hresult, htree⟩
  · cases h.symm.trans hclear
  · exact ⟨hresult, htree⟩

theorem replaceOutput_eq_ok {r : Registry} {summary : GenerateSummary} :
    (replaceOutput config fs r).result = .ok summary ↔
      (clearOutput fs config.outputDir).result = .ok () ∧ (refill config fs r).result = .ok ()
        ∧ summary
          = ⟨r.size, (Artifact.generateRegistry config.artifactOptions r).map (·.path)⟩ := by
  cases hclear : (clearOutput fs config.outputDir).result with
  | error e =>
    rw [replaceOutput_of_error hclear]
    exact iff_of_false (fun h => nomatch h) fun h => nomatch h.1
  | ok done =>
    rw [(replaceOutput_of_ok hclear).1]
    cases (refill config fs r).result with
    | error e => exact iff_of_false (fun h => nomatch h) fun h => nomatch h.2.1
    | ok done =>
      exact ⟨fun h => ⟨rfl, rfl, (Except.ok.inj h).symm⟩, fun h => congrArg _ h.2.2.symm⟩

/-! ## 2. Runs on trees that are equal outside the output directory -/

/-- The trees have the same entries but at a location and below it, and no file at the location. -/
structure EqualOutside (place : Location) (t t' : FileTree) : Prop where
  outside : ∀ other, ¬ place <+: other → t.get? other = t'.get? other
  noFile : ∀ content, t.get? place ≠ some (.file content)
  noFile' : ∀ content, t'.get? place ≠ some (.file content)

section Outside

variable {t t' : FileTree} {working : Location}

theorem EqualOutside.symm (h : EqualOutside out t t') : EqualOutside out t' t :=
  ⟨fun other ho => (h.outside other ho).symm, h.noFile', h.noFile⟩

/-- A path without `..` finds the same in such trees unless it leads to the location or below it. -/
theorem find_outside (h : EqualOutside out t t') {p : Path}
    (hup : Component.up ∉ p.components)
    (hp : ∀ place, p.fold? working = some place → ¬ out <+: place) :
    (FileSystem.mk t working).find p = (FileSystem.mk t' working).find p := by
  cases hfold : p.fold? working with
  | none =>
    unfold Path.fold? at hfold
    split at hfold
    · rename_i hempty
      have hfault : p.fault? = some .notFound := by
        obtain ⟨text⟩ := p
        obtain rfl : text = "" := beq_iff_eq.1 hempty
        rfl
      simp only [FileSystem.find, hfault]
    · cases hfold
  | some place =>
    refine FileSystem.find_congr_above (Path.up_not_mem_steps hup) hfold fun other hprefix => ?_
    exact h.outside other fun hbelow => hp place hfold (hbelow.trans hprefix)

variable (hdirect : config.Direct) (hout : config.outputDir.fold? working = some out)
  (h : EqualOutside out t t')

include hdirect hout h

/-- The checks come to the same: the guard sees to it that no input is looked for in the output
directory. -/
theorem prepare_outside : prepare config ⟨t, working⟩ = prepare config ⟨t', working⟩ := by
  cases haccepted : config.checkOutput working with
  | error e =>
    unfold prepare
    simp only [haccepted]
  | ok done =>
    obtain ⟨out', hout', hinput⟩ := checkOutput_spec haccepted
    obtain rfl := Option.some.inj (hout.symm.trans hout')
    have hids := find_outside h hdirect.idRegistry (hinput .idRegistry)
    exact prepare_congr (find_outside h hdirect.schema (hinput .schema)) (isFile_congr hids)
      fun _ => hids

/-- What keeps the output directory from being cleared lies above it. -/
theorem find_output_outside {e : FileFault}
    (hfind : (FileSystem.mk t working).find config.outputDir = .error e) (he : e ≠ .notFound) :
    (FileSystem.mk t' working).find config.outputDir = .error e := by
  obtain ⟨name, hlast, hname⟩ := hdirect.last
  exact FileSystem.find_error_congr hdirect.steps hout hlast hname h.outside hfind he

/-- The output directory can be cleared in both trees or in neither. -/
theorem clearable_outside (hclear : Clearable ⟨t, working⟩ config.outputDir) :
    Clearable ⟨t', working⟩ config.outputDir := by
  rcases clearable_or (.mk t' working) hout h.noFile' with hclear' | ⟨e, he, hfind⟩
  · exact hclear'
  · have hfind' := find_output_outside hdirect hout h.symm hfind he
    rcases hclear with hnone | ⟨place, hthere⟩
    · exact absurd (Except.error.inj (hfind'.symm.trans hnone)) he
    · cases hfind'.symm.trans hthere

/-- **When the output directory has been cleared, nothing is left of the difference.** -/
theorem replaceOutput_outside (r : Registry) (hclear : Clearable ⟨t, working⟩ config.outputDir) :
    (replaceOutput config ⟨t, working⟩ r).result = (replaceOutput config ⟨t', working⟩ r).result
      ∧ ∀ place, (replaceOutput config ⟨t, working⟩ r).tree.get? place
        = (replaceOutput config ⟨t', working⟩ r).tree.get? place := by
  obtain ⟨hok, hcleared⟩ := cleared_of_clearable hdirect hclear hout
  obtain ⟨hok', hcleared'⟩ :=
    cleared_of_clearable hdirect (clearable_outside hdirect hout h hclear) hout
  obtain ⟨hresult, htree⟩ := replaceOutput_of_ok (r := r) hok
  obtain ⟨hresult', htree'⟩ := replaceOutput_of_ok (r := r) hok'
  have hsame : (refill config ⟨t, working⟩ r).SameOn (fun _ => True)
      (refill config ⟨t', working⟩ r) :=
    writeArtifacts_sameOn (fun place _ => hcleared.same hcleared' h.outside place)
      fun _ _ _ _ => trivial
  rw [hresult, hresult', htree, htree']
  exact ⟨congrArg _ hsame.result, fun place => hsame.tree place trivial⟩

end Outside

/-! ## 3. Runs on what a run has left -/

theorem writeArtifacts_kept (fs : FileSystem) (dir : Path) (artifacts : List Artifact) :
    Kept fs.tree (writeArtifacts fs dir artifacts).tree :=
  writeArtifacts_induction fs
    (fun t a _ h => h.trans ((fs.withTree t).writeDeep_kept (dir.join a.path) a.text.toUTF8))
    (Kept.refl fs.tree)

/-- **Artifacts that could be written into a tree can be written into one between it and a later
one**, which it stays between. -/
theorem writeArtifacts_again (working : Location) (dir : Path) {u : FileTree} :
    ∀ (artifacts : List Artifact) {t v : FileTree}, Between t v u →
      Kept (writeArtifacts ⟨t, working⟩ dir artifacts).tree u →
        (writeArtifacts ⟨t, working⟩ dir artifacts).result = .ok () →
          (writeArtifacts ⟨v, working⟩ dir artifacts).result = .ok ()
            ∧ Between (writeArtifacts ⟨t, working⟩ dir artifacts).tree
              (writeArtifacts ⟨v, working⟩ dir artifacts).tree u
  | [], _, _, hbetween, _, _ => ⟨rfl, hbetween⟩
  | a :: rest, t, v, hbetween, hkept, hok => by
      rcases writeArtifacts_cons ⟨t, working⟩ dir a rest with
        ⟨e, _, hresult, _⟩ | ⟨t₁, hdeep, hresult, htree⟩
      · cases hok.symm.trans hresult
      rw [hresult] at hok
      rw [htree] at hkept ⊢
      have hfirst : Kept t₁ u := (writeArtifacts_kept (.mk t₁ working) dir rest).trans hkept
      obtain ⟨v₁, hdeep', hbetween'⟩ := FileSystem.writeDeep_again hbetween hfirst hdeep
      rcases writeArtifacts_cons ⟨v, working⟩ dir a rest with
        ⟨e, herror, _, _⟩ | ⟨v₂, hdeep₂, hresult', htree'⟩
      · rw [hdeep'] at herror
        cases herror
      · obtain rfl : v₁ = v₂ := congrArg Changed.tree (hdeep'.symm.trans hdeep₂)
        rw [hresult', htree']
        exact writeArtifacts_again working dir rest hbetween' hkept hok

/-- A path that leads to somewhere below a location. -/
def LeadsBelow (working place : Location) (p : Path) : Prop :=
  ∃ names, names ≠ [] ∧ p.fold? working = some (place ++ names)

section Again

variable {t : FileTree} {working : Location} {r : Registry} (hdirect : config.Direct)
  (hout : config.outputDir.fold? working = some out)
  (hclear : Clearable ⟨t, working⟩ config.outputDir)
  (hbelow : ∀ a ∈ Artifact.generateRegistry config.artifactOptions r,
    LeadsBelow working out (config.outputDir.join a.path))

include hdirect hout hclear hbelow

/-- Files outside the output directory are as they were. -/
theorem file_outside {place : Location} (hplace : ¬ out <+: place) (content : ByteArray) :
    (replaceOutput config ⟨t, working⟩ r).tree.get? place = some (.file content)
      ↔ t.get? place = some (.file content) := by
  obtain ⟨hok, hcleared⟩ := cleared_of_clearable hdirect hclear hout
  rw [(replaceOutput_of_ok hok).2]
  refine writeArtifacts_induction (motive := fun t' => t'.get? place = some (.file content)
    ↔ t.get? place = some (.file content)) _ (fun t' a ha ht' => ?_) ?_
  · refine (FileSystem.writeDeep_file_iff _ ?_ content a.text.toUTF8).trans ht'
    obtain ⟨names, _, hfold⟩ := hbelow a ha
    intro hsame
    exact hplace (Option.some.inj (hfold.symm.trans hsame) ▸ List.prefix_append out names)
  · show (FileSystem.removeDirectory _ _).tree.get? place = _ ↔ _
    rw [hcleared place, if_neg hplace]

/-- A path that finds a file before the run or after it finds the same file before and after. -/
theorem find_again {p : Path} (hup : Component.up ∉ p.components)
    (hp : ∀ place, p.fold? working = some place → ¬ out <+: place)
    (hfile : (FileSystem.mk t working).isFile p = true
      ∨ (FileSystem.mk (replaceOutput config ⟨t, working⟩ r).tree working).isFile p = true) :
    (FileSystem.mk t working).find p
      = (FileSystem.mk (replaceOutput config ⟨t, working⟩ r).tree working).find p := by
  have hfound : ∃ place content, p.fold? working = some place
      ∧ t.get? place = some (.file content) := by
    rcases hfile with hfile | hfile
    · obtain ⟨place, content, hfind⟩ := isFile_iff.1 hfile
      exact ⟨place, content, FileSystem.find_spec hfind⟩
    · obtain ⟨place, content, hfind⟩ := isFile_iff.1 hfile
      obtain ⟨hfold, hget⟩ := FileSystem.find_spec hfind
      exact ⟨place, content, hfold,
        (file_outside hdirect hout hclear hbelow (hp place hfold) content).1 hget⟩
  obtain ⟨place, content, hfold, hget⟩ := hfound
  exact FileSystem.find_congr_of_entry (Path.up_not_mem_steps hup) hfold hget
    ((file_outside hdirect hout hclear hbelow (hp place hfold) content).2 hget)

theorem prepare_again (hprep : (prepare config ⟨t, working⟩).result = .ok r) :
    prepare config ⟨t, working⟩
      = prepare config ⟨(replaceOutput config ⟨t, working⟩ r).tree, working⟩ := by
  obtain ⟨haccepted, hloaded, _⟩ := prepare_eq_ok.1 hprep
  obtain ⟨out', hout', hinput⟩ := checkOutput_spec haccepted
  obtain rfl := Option.some.inj (hout.symm.trans hout')
  obtain ⟨_, hroot, _⟩ := loadRegistry_eq_ok.1 hloaded
  have hids := find_again hdirect hout hclear hbelow hdirect.idRegistry (hinput .idRegistry)
  refine prepare_congr (find_again hdirect hout hclear hbelow hdirect.schema (hinput .schema)
    (Or.inl (isFile_of_rootTable hroot))) ?_ fun hfile => hids (Or.inl hfile)
  rw [Bool.eq_iff_iff]
  exact ⟨fun hfile => isFile_congr (hids (Or.inl hfile)) ▸ hfile,
    fun hfile => (isFile_congr (hids (Or.inr hfile))).trans hfile⟩

/-- The output directory can be cleared again: it is a directory if anything has been written below
it, and else nothing has changed but it. -/
theorem clearable_again (hok : (refill config ⟨t, working⟩ r).result = .ok ()) :
    Clearable ⟨(replaceOutput config ⟨t, working⟩ r).tree, working⟩ config.outputDir := by
  obtain ⟨hdone, hcleared⟩ := cleared_of_clearable hdirect hclear hout
  rw [(replaceOutput_of_ok hdone).2]
  unfold refill at hok ⊢
  cases hartifacts : Artifact.generateRegistry config.artifactOptions r with
  | nil =>
    refine clearable_outside hdirect hout ⟨fun other ho => ?_, ?_, fun content => ?_⟩ hclear
    · exact ((hcleared other).trans (if_neg ho)).symm
    · exact noFile_of_clearable hdirect.steps hout hclear
    · show FileTree.get? (FileSystem.removeDirectory _ _).tree out ≠ _
      rw [hcleared out, if_pos List.prefix_rfl]
      exact fun h => nomatch h
  | cons a rest =>
    rw [hartifacts] at hok
    obtain ⟨names, hne, hfold⟩ := hbelow a (hartifacts ▸ List.mem_cons_self)
    rcases writeArtifacts_cons ⟨(FileSystem.removeDirectory ⟨t, working⟩ config.outputDir).tree,
      working⟩ config.outputDir a rest with ⟨e, _, hresult, _⟩ | ⟨t₁, hdeep, _, htree⟩
    · cases hok.symm.trans hresult
    · obtain ⟨place, hplace, hfile⟩ := FileSystem.writeDeep_eq_ok (congrArg Changed.result hdeep)
      obtain rfl := Option.some.inj (hfold.symm.trans hplace)
      rw [hdeep] at hfile
      obtain ⟨content, hlast⟩ :=
        (writeArtifacts_kept (.mk t₁ working) config.outputDir rest).file _ _ hfile
      have hget := (congrArg (·.get? (out ++ names)) htree).trans hlast
      exact Or.inr ⟨out, FileSystem.find_above hdirect.steps (fault?_of_clearable hout hclear) hout
        hne hget⟩

/-- **The same artifacts can be written once more, and all is as before then.** -/
theorem replaceOutput_again {summary : GenerateSummary} {u : FileTree}
    (hok : (replaceOutput config ⟨t, working⟩ r).result = .ok summary)
    (hu : (replaceOutput config ⟨t, working⟩ r).tree = u) :
    (replaceOutput config ⟨u, working⟩ r).result = .ok summary
      ∧ ∀ place, (replaceOutput config ⟨u, working⟩ r).tree.get? place = u.get? place := by
  obtain ⟨hdone, hwritten, hsummary⟩ := replaceOutput_eq_ok.1 hok
  obtain ⟨_, hcleared⟩ := cleared_of_clearable hdirect hclear hout
  have hagain := clearable_again hdirect hout hclear hbelow hwritten
  have htree : (refill config ⟨t, working⟩ r).tree = u := (replaceOutput_of_ok hdone).2 ▸ hu
  rw [hu] at hagain
  obtain ⟨hdone', hcleared'⟩ := cleared_of_clearable hdirect hagain hout
  have hbetween : Between (FileSystem.removeDirectory ⟨t, working⟩ config.outputDir).tree
      (FileSystem.removeDirectory ⟨u, working⟩ config.outputDir).tree u := by
    intro place
    rw [hcleared place, hcleared' place]
    split
    · exact Or.inl rfl
    · exact Or.inr rfl
  have hkept : Kept (refill config ⟨t, working⟩ r).tree u := htree ▸ Kept.refl u
  obtain ⟨hwritten', hlast⟩ := writeArtifacts_again working config.outputDir
    (Artifact.generateRegistry config.artifactOptions r) hbetween hkept hwritten
  refine ⟨replaceOutput_eq_ok.2 ⟨hdone', hwritten', hsummary⟩, fun place => ?_⟩
  rw [(replaceOutput_of_ok hdone').2]
  rcases hlast place with h | h
  · exact h.trans (congrArg (·.get? place) htree)
  · exact h

end Again

/-! ## 4. The whole run -/

/-- A run depends on nothing that stands at the output directory or below it, so it depends on
nothing that an earlier run has left there. -/
structure Forgetful (config : Config) (working out : Location) : Prop where
  /-- The same summary or the same error. -/
  result : ∀ t t', EqualOutside out t t' →
    (generate config ⟨t, working⟩).result = (generate config ⟨t', working⟩).result
  /-- The same tree once the output directory is cleared, however far the run gets then. -/
  tree : ∀ t t', EqualOutside out t t' → ∀ r, (prepare config ⟨t, working⟩).result = .ok r →
    (clearOutput ⟨t, working⟩ config.outputDir).result = .ok () → ∀ place,
      (generate config ⟨t, working⟩).tree.get? place
        = (generate config ⟨t', working⟩).tree.get? place
  /-- After a run whose files lie below the output directory another one does the same and changes
  nothing. -/
  again : ∀ t summary, (generate config ⟨t, working⟩).result = .ok summary →
    (∀ path ∈ summary.files, LeadsBelow working out (config.outputDir.join path)) →
      (generate config ⟨(generate config ⟨t, working⟩).tree, working⟩).result = .ok summary
        ∧ ∀ place, (generate config ⟨(generate config ⟨t, working⟩).tree, working⟩).tree.get? place
          = (generate config ⟨t, working⟩).tree.get? place
  /-- The files lie below it if the class prefix has no slash. -/
  below : '/' ∉ config.writing.classPrefix.toList → ∀ t summary,
    (generate config ⟨t, working⟩).result = .ok summary →
      ∀ path ∈ summary.files, LeadsBelow working out (config.outputDir.join path)

theorem generate_eq_ok {summary : GenerateSummary}
    (h : (generate config fs).result = .ok summary) :
    ∃ r, (prepare config fs).result = .ok r ∧ (replaceOutput config fs r).result = .ok summary
      ∧ (generate config fs).tree = (replaceOutput config fs r).tree := by
  cases hprep : (prepare config fs).result with
  | error e => cases h.symm.trans (generate_of_refused hprep).1
  | ok r =>
    obtain ⟨hresult, htree⟩ := generate_of_prepared hprep
    exact ⟨r, rfl, hresult.symm.trans h, htree⟩

section Whole

variable {working : Location} (hdirect : config.Direct)
  (hout : config.outputDir.fold? working = some out)

include hdirect hout

theorem generate_outside {t t' : FileTree} (h : EqualOutside out t t') :
    (generate config ⟨t, working⟩).result = (generate config ⟨t', working⟩).result
      ∧ ∀ r, (prepare config ⟨t, working⟩).result = .ok r →
        (clearOutput ⟨t, working⟩ config.outputDir).result = .ok () → ∀ place,
          (generate config ⟨t, working⟩).tree.get? place
            = (generate config ⟨t', working⟩).tree.get? place := by
  have hprepare := prepare_outside hdirect hout h
  cases hprep : (prepare config ⟨t, working⟩).result with
  | error e =>
    rw [(generate_of_refused hprep).1, (generate_of_refused (hprepare ▸ hprep)).1]
    exact ⟨rfl, fun r hr => nomatch hr⟩
  | ok r =>
    obtain ⟨hresult, htree⟩ := generate_of_prepared hprep
    obtain ⟨hresult', htree'⟩ := generate_of_prepared (hprepare ▸ hprep)
    rw [hresult, hresult', htree, htree']
    rcases clearable_or (.mk t working) hout h.noFile with hclear | ⟨e, he, hfind⟩
    · obtain ⟨hsame, hplace⟩ := replaceOutput_outside hdirect hout h r hclear
      exact ⟨hsame, fun _ _ _ => hplace⟩
    · have hfailed := clearOutput_of_error hfind he
      have hfailed' := clearOutput_of_error (find_output_outside hdirect hout h hfind he) he
      rw [replaceOutput_of_error hfailed, replaceOutput_of_error hfailed', hfailed]
      exact ⟨rfl, fun _ _ hclear => nomatch hclear⟩

theorem generate_again {t : FileTree} {summary : GenerateSummary}
    (hok : (generate config ⟨t, working⟩).result = .ok summary)
    (hbelow : ∀ path ∈ summary.files, LeadsBelow working out (config.outputDir.join path)) :
    (generate config ⟨(generate config ⟨t, working⟩).tree, working⟩).result = .ok summary
      ∧ ∀ place, (generate config ⟨(generate config ⟨t, working⟩).tree, working⟩).tree.get? place
        = (generate config ⟨t, working⟩).tree.get? place := by
  obtain ⟨r, hprep, hrun, hfirst⟩ := generate_eq_ok hok
  obtain ⟨hdone, _, rfl⟩ := replaceOutput_eq_ok.1 hrun
  have hclear := clearable_of_ok hdone
  have hartifacts : ∀ a ∈ Artifact.generateRegistry config.artifactOptions r,
      LeadsBelow working out (config.outputDir.join a.path) := fun a ha =>
    hbelow a.path (List.mem_map_of_mem ha)
  have hprep' := prepare_again hdirect hout hclear hartifacts hprep
  rw [hprep'] at hprep
  obtain ⟨hresult, htree⟩ := generate_of_prepared hprep
  obtain ⟨hagain, hplace⟩ := replaceOutput_again hdirect hout hclear hartifacts hrun rfl
  rw [hfirst, hresult, htree]
  exact ⟨hagain, hplace⟩

omit hdirect in
/-- Files whose names have no slash in their prefix lie below the output directory. -/
theorem leadsBelow_of_plain (hslash : '/' ∉ config.writing.classPrefix.toList) {t : FileTree}
    {summary : GenerateSummary} (hok : (generate config ⟨t, working⟩).result = .ok summary) :
    ∀ path ∈ summary.files, LeadsBelow working out (config.outputDir.join path) := by
  obtain ⟨r, hprep, hrun, _⟩ := generate_eq_ok hok
  obtain ⟨_, _, rfl⟩ := replaceOutput_eq_ok.1 hrun
  intro path hpath
  obtain ⟨a, ha, rfl⟩ := List.mem_map.1 hpath
  have hprefix : '/' ∉ config.artifactOptions.classPrefix.toList := hslash
  have hplain : a.path.Plain := Artifact.plain_of_mem (named_of_prepared hprep) hprefix ha
  exact ⟨a.path.parts, Path.parts_ne_nil a.path, hplain.fold?_join hout⟩

end Whole

/-- **What a run generates does not depend on what an earlier run has left in the output
directory.** The paths have no `..`, and the output path ends in an ordinary name. -/
theorem forgetful_of_direct (h : config.Direct) (working : Location) :
    ∃ out, config.outputDir.fold? working = some out ∧ Forgetful config working out := by
  obtain ⟨out, hout⟩ := h.exists_place working
  refine ⟨out, hout, ?_, ?_, ?_, ?_⟩
  · exact fun _ _ hequal => (generate_outside h hout hequal).1
  · exact fun _ _ hequal => (generate_outside h hout hequal).2
  · exact fun _ _ hok => generate_again h hout hok
  · exact fun hslash _ _ hok => leadsBelow_of_plain hout hslash hok

theorem forgetful_stale :
    (generate stale.1 ⟨(generate stale.1 stale.2).tree, []⟩).result
        = .ok ⟨1, [⟨"class/ui/MasterA.hpp"⟩, ⟨"repository/ui/MasterARepository.hpp"⟩,
          ⟨"repository/ui/MasterARepository.cpp"⟩]⟩
      ∧ ∀ place, (generate stale.1 ⟨(generate stale.1 stale.2).tree, []⟩).tree.get? place
        = (generate stale.1 stale.2).tree.get? place := by
  have hdirect : stale.1.Direct :=
    ⟨by decide +kernel, by decide +kernel, by decide +kernel, "out", by decide +kernel⟩
  obtain ⟨out, _, hforgetful⟩ := forgetful_of_direct hdirect []
  have hok : (generate stale.1 stale.2).result
      = .ok ⟨1, [⟨"class/ui/MasterA.hpp"⟩, ⟨"repository/ui/MasterARepository.hpp"⟩,
        ⟨"repository/ui/MasterARepository.cpp"⟩]⟩ := by decide +kernel
  exact hforgetful.again _ _ hok (hforgetful.below (by decide +kernel) _ _ hok)

/-- A project whose class prefix leads out of the output directory, to where an id file may be. -/
def stray : Config × FileSystem :=
  ({ layout := { schema := ⟨"a.toml"⟩, idRegistry := ⟨"A.hpp"⟩, output := ⟨"out"⟩ },
     writing := { classPrefix := "../../" } },
    ⟨.ofEntries [(["a.toml"], .file
      "[masterdata.md_A]\ndata_type_name = \"A\"\nfield.id = \"int:PKey\"\n".toUTF8)], []⟩)

/-- The first run writes a file that the second one takes for the id file. -/
theorem stray_refused : stray.1.Direct ∧ stray.2.tree.get? ["out"] = none
    ∧ (generate stray.1 stray.2).result = .ok ⟨1, [⟨"class/../../A.hpp"⟩,
      ⟨"repository/../../ARepository.hpp"⟩, ⟨"repository/../../ARepository.cpp"⟩]⟩
    ∧ (generate stray.1 ⟨(generate stray.1 stray.2).tree, []⟩).result
      = .error (.load (.unsupportedFormat ⟨"././A.hpp"⟩)) :=
  ⟨⟨by decide +kernel, by decide +kernel, by decide +kernel, "out", by decide +kernel⟩,
    by decide +kernel, by decide +kernel, by decide +kernel⟩

end Project

end MasterSchema
