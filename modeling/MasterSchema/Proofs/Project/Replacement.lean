import MasterSchema.Proofs.Project.Inputs

/-!
# The output directory after a run

A run that succeeds leaves below its output directory the artifacts of the schema and nothing else.

* `Laid` is the invariant of the loop that writes: below a place stand the artifacts written so far
  and the directories on the way to them, elsewhere all is as before. It holds of no artifacts when
  the output directory is cleared, each write adds its artifact (`Laid.extend`), and so the loop
  adds all of them (`Laid.writeAll`).
* A write changes nothing that was written before because no two artifacts have one path.
* `Regenerated` says what the run as a whole has done (`regenerated_of_generate`).
-/

namespace MasterSchema

/-! ## 1. One write -/

/-- A file of the content stands at the target, directories may be new on the way to it, and nothing
else has changed. -/
structure Extended (target : Location) (content : ByteArray) (t t' : FileTree) : Prop where
  file : t'.get? target = some (.file content)
  other : ∀ other, other ≠ target → t'.get? other = t.get? other ∨
    (other <+: target ∧ t.get? other = none ∧ t'.get? other = some .directory)

theorem Extended.file_iff {target other : Location} {written content : ByteArray}
    {t t' : FileTree} (h : Extended target written t t') (ho : other ≠ target) :
    t'.get? other = some (.file content) ↔ t.get? other = some (.file content) := by
  rcases h.other other ho with hsame | ⟨_, hnone, hdir⟩
  · rw [hsame]
  · rw [hnone, hdir]
    exact ⟨(fun e => nomatch e), fun e => nomatch e⟩

/-- A path below a directory without `..` passes only what is on the way to where it leads. -/
theorem Path.Passes.isPrefix_join {dir p : Path} {working place other : Location}
    (hup : Component.up ∉ dir.steps) (hd : dir.fold? working = some place) (hp : p.Plain)
    (h : (dir.join p).Passes working other) : other <+: place ++ p.parts := by
  obtain ⟨names, hnames⟩ := steps_eq_names hup
  have hsteps : (dir.join p).steps = (names ++ p.parts).map Component.name := by
    rw [steps_join hp.relative, hp.steps_eq, hnames, List.map_append]
  have hne : (dir.join p).steps ≠ [] := by
    rw [hsteps]
    exact fun e => parts_ne_nil p (List.append_eq_nil_iff.1 (List.map_eq_nil_iff.1 e)).2
  have hplace : (dir.join p).origin working ++ (names ++ p.parts) = place ++ p.parts := by
    have hj := hp.fold?_join hd
    rw [Path.fold?_eq (text_ne_of_steps hne), hsteps, foldl_foldStep_names] at hj
    exact Option.some.inj hj
  rw [← hplace]
  exact h.isPrefix hsteps

/-- A deep write of a plain path below a directory extends the tree by its file. -/
theorem FileSystem.writeDeep_extended (fs : FileSystem) {dir p : Path} {place : Location}
    (hup : Component.up ∉ dir.steps) (hd : dir.fold? fs.working = some place) (hp : p.Plain)
    {content : ByteArray} {t' : FileTree}
    (hw : fs.writeDeep (dir.join p) content = ⟨.ok (), t'⟩) :
    Extended (place ++ p.parts) content fs.tree t' := by
  obtain ⟨grown, hgrown, hdone⟩ := fs.writeDeep_written (dir.join p) content
  rw [hw] at hdone
  cases hdone with
  | done target _ htarget hfile hother =>
    obtain rfl := Option.some.inj ((hp.fold?_join hd).symm.trans htarget)
    refine ⟨hfile, fun other ho => ?_⟩
    rw [hother other ho]
    rcases hgrown other with hsame | ⟨hpasses, hrest⟩
    · exact Or.inl hsame
    · exact Or.inr ⟨hpasses.isPrefix_join hup hd hp, hrest⟩

/-! ## 2. All writes -/

/-- Below a place stand the written artifacts, each with its text, and the directories on the way to
them. Elsewhere all is as before, but for directories above the place that were missing. -/
structure Laid (place : Location) (before : FileTree) (written : List Artifact) (t : FileTree) :
    Prop where
  file_iff : ∀ other content, place <+: other → (t.get? other = some (.file content) ↔
    ∃ a ∈ written, other = place ++ a.path.parts ∧ content = a.text.toUTF8)
  directory : ∀ other, place <+: other → other ≠ place → t.get? other = some .directory →
    ∃ a ∈ written, other <+: place ++ a.path.parts ∧ other ≠ place ++ a.path.parts
  outside : ∀ other, ¬ place <+: other → t.get? other = before.get? other ∨
    (other <+: place ∧ before.get? other = none ∧ t.get? other = some .directory)

namespace Laid

variable {place : Location} {before t t' : FileTree} {written : List Artifact}

/-- An emptied place has nothing written below it. -/
theorem of_emptied (h : Emptied place before t) : Laid place before [] t where
  file_iff other content hp :=
    ⟨fun hg => absurd hg (h.not_file hp content), fun ⟨_, hm, _⟩ => absurd hm List.not_mem_nil⟩
  directory other hp hne hd := by
    rw [h.below other hp hne] at hd
    cases hd
  outside other ho := Or.inl (h.outside other ho)

section Extension

variable {a : Artifact} (h : Laid place before written t)
  (hx : Extended (place ++ a.path.parts) a.text.toUTF8 t t')

include h hx

/-- The file at the new path is the new artifact; none that was written before has its path. -/
theorem extend_file_iff (hnew : a.path.parts ∉ written.map (·.path.parts)) (other : Location)
    (content : ByteArray) (hbelow : place <+: other) :
    t'.get? other = some (.file content) ↔
      ∃ b ∈ written ++ [a], other = place ++ b.path.parts ∧ content = b.text.toUTF8 := by
  by_cases ho : other = place ++ a.path.parts
  · rw [ho, hx.file]
    constructor
    · intro hc
      exact ⟨a, List.mem_append_right _ List.mem_cons_self, rfl,
        (Entry.file.inj (Option.some.inj hc)).symm⟩
    · intro hb
      obtain ⟨b, hb, hparts, rfl⟩ := hb
      rcases List.mem_append.1 hb with hb | hb
      · have hsame : b.path.parts = a.path.parts := (List.append_cancel_left hparts).symm
        exact absurd (List.mem_map.2 ⟨b, hb, hsame⟩) hnew
      · rw [List.mem_singleton.1 hb]
  · rw [hx.file_iff ho, h.file_iff other content hbelow]
    constructor
    · intro hb
      obtain ⟨b, hb, hrest⟩ := hb
      exact ⟨b, List.mem_append_left _ hb, hrest⟩
    · intro hb
      obtain ⟨b, hb, hrest⟩ := hb
      rcases List.mem_append.1 hb with hb | hb
      · exact ⟨b, hb, hrest⟩
      · rw [List.mem_singleton.1 hb] at hrest
        exact absurd hrest.1 ho

/-- A directory below the place was there, or is on the way to the new file. -/
theorem extend_directory (other : Location) (hbelow : place <+: other) (hne : other ≠ place)
    (hdir : t'.get? other = some .directory) :
    ∃ b ∈ written ++ [a], other <+: place ++ b.path.parts ∧ other ≠ place ++ b.path.parts := by
  have ho : other ≠ place ++ a.path.parts := by
    intro e
    rw [e] at hdir
    cases hx.file.symm.trans hdir
  rcases hx.other other ho with hsame | ⟨hp, _, _⟩
  · obtain ⟨b, hb, hrest⟩ := h.directory other hbelow hne (hsame.symm.trans hdir)
    exact ⟨b, List.mem_append_left _ hb, hrest⟩
  · exact ⟨a, List.mem_append_right _ List.mem_cons_self, hp, ho⟩

/-- Elsewhere a directory is new only above the place, and only where nothing was before. -/
theorem extend_outside (other : Location) (hout : ¬ place <+: other) :
    t'.get? other = before.get? other ∨
      (other <+: place ∧ before.get? other = none ∧ t'.get? other = some .directory) := by
  have ho : other ≠ place ++ a.path.parts := by
    intro e
    rw [e] at hout
    exact hout (List.prefix_append place a.path.parts)
  rcases hx.other other ho with hsame | ⟨hp, hnone, hdir⟩
  · rw [hsame]
    exact h.outside other hout
  · have habove : other <+: place :=
      (List.prefix_or_prefix_of_prefix hp (List.prefix_append place _)).resolve_right hout
    rcases h.outside other hout with hsame | ⟨_, _, hdir'⟩
    · exact Or.inr ⟨habove, hsame.symm.trans hnone, hdir⟩
    · cases hnone.symm.trans hdir'

/-- **A new file with its directories adds its artifact to what is written.** -/
theorem extend (hnew : a.path.parts ∉ written.map (·.path.parts)) :
    Laid place before (written ++ [a]) t' where
  file_iff := extend_file_iff h hx hnew
  directory := extend_directory h hx
  outside := extend_outside h hx

end Extension

/-- **The loop that writes adds all its artifacts, if their paths are new and differ.** -/
theorem writeAll {dir : Path} (fs : FileSystem) (hup : Component.up ∉ dir.steps)
    (hd : dir.fold? fs.working = some place) : ∀ (artifacts : List Artifact)
      {written : List Artifact} {t : FileTree}, (∀ a ∈ artifacts, a.path.Plain) →
        ((written ++ artifacts).map (·.path.parts)).Nodup → Laid place before written t →
          (Project.writeArtifacts (fs.withTree t) dir artifacts).result = .ok () →
            Laid place before (written ++ artifacts)
              (Project.writeArtifacts (fs.withTree t) dir artifacts).tree
  | [], written, t, _, _, h, _ => by
      rw [List.append_nil]
      exact h
  | a :: rest, written, t, hplain, hnodup, h, hok => by
      rcases Project.writeArtifacts_cons (fs.withTree t) dir a rest with
        ⟨e, _, hresult, _⟩ | ⟨t', hdeep, hresult, htree⟩
      · cases hok.symm.trans hresult
      · have hnew : a.path.parts ∉ written.map (·.path.parts) := by
          intro hm
          rw [List.map_append, List.nodup_append] at hnodup
          exact hnodup.2.2 _ hm _ (List.mem_map_of_mem List.mem_cons_self) rfl
        have hextended : Extended (place ++ a.path.parts) a.text.toUTF8 t t' :=
          (fs.withTree t).writeDeep_extended hup hd (hplain a List.mem_cons_self) hdeep
        have hstep := h.extend hextended hnew
        rw [List.append_cons] at hnodup ⊢
        rw [htree]
        exact writeAll fs hup hd rest (fun b hb => hplain b (List.mem_cons_of_mem a hb)) hnodup
          hstep (hresult.symm.trans hok)

end Laid

namespace Project

variable {config : Config} {fs : FileSystem}

/-! ## 3. The whole run -/

/-- An output directory that is cleared leaves nothing below its place. -/
theorem clearOutput_emptied {dir : Path} {place : Location} (hup : Component.up ∉ dir.steps)
    (hd : dir.fold? fs.working = some place) (h : (clearOutput fs dir).result = .ok ()) :
    Emptied place fs.tree (fs.removeDirectory dir).tree := by
  unfold clearOutput at h
  cases hf : fs.find dir with
  | ok found =>
    obtain ⟨there, e⟩ := found
    cases e with
    | directory =>
      obtain rfl := Option.some.inj (hd.symm.trans (FileSystem.find_spec hf).1)
      exact FileSystem.removeDirectory_emptied hf
    | file content =>
      rw [FileSystem.removeDirectory_of_file hf] at h
      cases h
  | error e =>
    rw [FileSystem.removeDirectory_of_error hf] at h ⊢
    cases e with
    | notFound => exact FileTree.emptied_of_none (FileSystem.get?_eq_none_of_notFound hup hf hd)
    | _ => cases h

/-- What a run that succeeds has done: `r` is the registry of the schema, `place` the location of
the output directory. -/
structure Regenerated (config : Config) (r : Registry) (place : Location)
    (summary : GenerateSummary) (before after : FileTree) : Prop where
  dataTypes : summary.dataTypes = r.size
  /-- Three files for each data type, in the order of the schema. -/
  files : summary.files =
    r.types.flatMap fun d => ArtifactKind.all.map (Artifact.pathOf config.artifactOptions d)
  length : summary.files.length = 3 * summary.dataTypes
  distinct : (summary.files.map Path.components).Nodup
  /-- The files below the output directory are the artifacts, each with its text. -/
  file_iff : ∀ other content, place <+: other → (after.get? other = some (.file content) ↔
    ∃ d ∈ r.types, ∃ kind,
      (Artifact.pathOf config.artifactOptions d kind).fold? place = some other
        ∧ content = (Artifact.generate config.artifactOptions d kind).text.toUTF8)
  /-- Every directory below the output directory is on the way to one of the files. -/
  directory : ∀ other, place <+: other → other ≠ place → after.get? other = some .directory →
    ∃ path ∈ summary.files, ∃ file, path.fold? place = some file ∧ other <+: file ∧ other ≠ file
  /-- Elsewhere nothing has changed but that directories above the output directory may be new. -/
  outside : ∀ other, ¬ place <+: other → after.get? other = before.get? other ∨
    (other <+: place ∧ before.get? other = none ∧ after.get? other = some .directory)

theorem regenerated_of_laid {r : Registry} {place : Location} {before after : FileTree}
    (hnamed : ∀ d ∈ r.types, d.Named) (hslash : '/' ∉ config.artifactOptions.classPrefix.toList)
    (h : Laid place before (Artifact.generateRegistry config.artifactOptions r) after) :
    Regenerated config r place
      ⟨r.size, (Artifact.generateRegistry config.artifactOptions r).map (·.path)⟩ before after where
  dataTypes := rfl
  files := Artifact.paths_generateRegistry config.artifactOptions r
  length := by
    rw [List.length_map]
    exact Artifact.length_generateRegistry config.artifactOptions r
  distinct := by
    rw [List.map_map]
    exact Artifact.nodup_components hnamed hslash
  file_iff other content hbelow := by
    rw [h.file_iff other content hbelow]
    constructor
    · intro hsome
      obtain ⟨a, ha, rfl, rfl⟩ := hsome
      obtain ⟨d, hd, kind, rfl⟩ := Artifact.mem_generateRegistry.1 ha
      exact ⟨d, hd, kind, (Artifact.plain_of_mem hnamed hslash ha).fold?_eq place, rfl⟩
    · intro hsome
      obtain ⟨d, hd, kind, hfold, rfl⟩ := hsome
      have hplain := Artifact.plain_pathOf (hnamed d hd) hslash kind
      exact ⟨_, Artifact.mem_generateRegistry.2 ⟨d, hd, kind, rfl⟩,
        Option.some.inj (hfold.symm.trans (hplain.fold?_eq place)), rfl⟩
  directory other hbelow hne hdir := by
    obtain ⟨a, ha, hp, ho⟩ := h.directory other hbelow hne hdir
    exact ⟨a.path, List.mem_map_of_mem ha, _,
      (Artifact.plain_of_mem hnamed hslash ha).fold?_eq place, hp, ho⟩
  outside := h.outside

/-- **A run that succeeds replaces what is below its output directory by the artifacts of the
schema, and nothing else.** The output directory is spelled without `..`, the class prefix without a
slash. -/
theorem regenerated_of_generate (hup : Component.up ∉ config.outputDir.components)
    (hslash : '/' ∉ config.writing.classPrefix.toList) {summary : GenerateSummary}
    (h : (generate config fs).result = .ok summary) :
    ∃ r place, (loadRegistry config fs).result = .ok r
      ∧ config.outputDir.fold? fs.working = some place
      ∧ Regenerated config r place summary fs.tree (generate config fs).tree := by
  cases hprep : (prepare config fs).result with
  | error e => cases h.symm.trans (generate_of_refused hprep).1
  | ok r =>
    obtain ⟨haccepted, hloaded, _⟩ := prepare_eq_ok.1 hprep
    obtain ⟨place, hplace, _⟩ := checkOutput_spec haccepted
    have hsteps := Path.up_not_mem_steps hup
    have hnamed := named_of_prepared hprep
    have hplain : '/' ∉ config.artifactOptions.classPrefix.toList := hslash
    obtain ⟨hresult, htree⟩ := generate_of_prepared hprep
    rw [hresult] at h
    rw [htree]
    refine ⟨r, place, hloaded, hplace, ?_⟩
    rcases replaceOutput_cases config fs r with ⟨_, _, herror, _⟩ | ⟨run, hclear, hrun, hmap, htree⟩
    · cases h.symm.trans herror
    · have hok : run.result = .ok () := by
        cases hr : run.result with
        | error e =>
          rw [hmap, hr] at h
          cases h
        | ok done => rfl
      rw [hmap, hok] at h
      obtain rfl := Except.ok.inj h
      rw [htree]
      refine regenerated_of_laid hnamed hplain ?_
      have hstart := Laid.of_emptied (clearOutput_emptied hsteps hplace hclear)
      rw [hrun] at hok ⊢
      exact Laid.writeAll fs hsteps hplace _ (fun a => Artifact.plain_of_mem hnamed hplain)
        (Artifact.nodup_parts hnamed hplain) hstart hok

/-- A project with one data type in a namespace, and with a file of an earlier run in its output
directory. -/
def stale : Config × FileSystem :=
  ({ layout := { schema := ⟨"a.toml"⟩, output := ⟨"out"⟩ } },
    ⟨.ofEntries [(["a.toml"], .file
        "[masterdata.ui.md_A]\ndata_type_name = \"A\"\nfield.id = \"int:PKey\"\n".toUTF8),
      (["out"], .directory), (["out", "old"], .directory),
      (["out", "old", "Gone.hpp"], .file "old".toUTF8)], []⟩)

theorem regenerated_stale : ∃ r place, (loadRegistry stale.1 stale.2).result = .ok r
    ∧ stale.1.outputDir.fold? stale.2.working = some place
    ∧ Regenerated stale.1 r place
      ⟨1, [⟨"class/ui/MasterA.hpp"⟩, ⟨"repository/ui/MasterARepository.hpp"⟩,
        ⟨"repository/ui/MasterARepository.cpp"⟩]⟩
      stale.2.tree (generate stale.1 stale.2).tree :=
  regenerated_of_generate (by decide +kernel) (by decide +kernel) (by decide +kernel)

end Project

end MasterSchema
