import MasterSchema.FileTree.Difference
import MasterSchema.Proofs.Project.Rerun

/-!
# What a directory receives

The output directory is cleared and then written into, both by one path. The removal stops where the
path passes something that is not there, and takes the output directory for missing; the writes make
what is missing and go on. A path with `..` can pass something missing on its way to a directory
that is there.

* A location has the text of the last artifact that was written there, or what it had before
  (`writeArtifacts_file_iff`).
* The removal leaves the files below the directory exactly if the way there is interrupted
  (`clearOutput_file_iff`).
* So the files below the directory are those of the artifacts unless the way is interrupted and
  another file was there (`received_of_written`). A path without `..` that leads to a file is not
  interrupted (`not_interrupted`), so that such a path clears all (`clearsAll_of_direct`).
-/

namespace MasterSchema

/-! ## 1. Where paths lead -/

namespace Path

/-- The location that a path leads to; the empty path leads nowhere else. -/
def reached (working : Location) (p : Path) : Location :=
  p.steps.foldl foldStep (p.origin working)

theorem reached_of_fold? {working place : Location} {p : Path} (h : p.fold? working = some place) :
    p.reached working = place := by
  rw [fold?_eq (text_ne_of_fold? h)] at h
  exact Option.some.inj h

/-- **A path behind a directory leads on from where the directory is.** -/
theorem reached_join (dir p : Path) (working : Location) :
    (dir.join p).reached working = p.reached (dir.reached working) := by
  cases habsolute : p.isAbsolute with
  | true => rw [join_absolute habsolute, reached, reached, origin, origin, habsolute, if_pos rfl,
      if_pos rfl]
  | false =>
    rw [reached, steps_join habsolute, List.foldl_append, origin, isAbsolute_join habsolute,
      reached, origin, habsolute]
    rfl

/-- A path whose components are names. -/
def OfNames (p : Path) : Prop := ∀ c ∈ p.components, ∃ name, c = .name name

/-- Such a path leads below the place that it is taken from. -/
theorem OfNames.isPrefix {p : Path} (h : p.OfNames) (place : Location) :
    place <+: p.reached place := by
  have hrelative : p.isAbsolute = false := by
    refine Bool.eq_false_iff.2 fun habsolute => ?_
    obtain ⟨_, hroot⟩ := h .root (by rw [components, if_pos habsolute]; exact List.mem_cons_self)
    cases hroot
  have hup : Component.up ∉ p.components := by
    intro hm
    obtain ⟨_, hname⟩ := h .up hm
    cases hname
  obtain ⟨names, hnames⟩ := steps_eq_names (up_not_mem_steps hup)
  rw [reached, hnames, foldl_foldStep_names, origin, hrelative]
  exact List.prefix_append place names

end Path

/-- **A walk that finds nothing misses something on its way.** -/
theorem FileTree.walk_eq_notFound {t : FileTree} : ∀ {parts : List String} {place : Location},
    t.walk place parts = .error .notFound → ∃ first,
      first <+: parts.filterMap Path.component? ∧ t.get? (first.foldl Path.foldStep place) = none
  | [], _, h => nomatch h
  | part :: rest, place, h => by
      unfold walk at h
      split at h
      · rename_i hstep
        exact ⟨[], List.nil_prefix, step_eq_notFound (Except.error.inj h ▸ hstep)⟩
      · rename_i next hstep
        obtain ⟨first, hfirst, hnone⟩ := walk_eq_notFound h
        refine ⟨(Path.component? part).toList ++ first, ?_, ?_⟩
        · rw [filterMap_cons_toList]
          exact (List.prefix_append_right_inj _).2 hfirst
        · rw [List.foldl_append, ← (step_eq_ok hstep).2]
          exact hnone

namespace Project

/-! ## 2. Writing -/

/-- A deep write that succeeds leaves its content where its path leads, and no other file changes. -/
theorem writeDeep_file {fs : FileSystem} {p : Path} {written : ByteArray} {t : FileTree}
    (h : fs.writeDeep p written = ⟨.ok (), t⟩) (other : Location) (content : ByteArray) :
    t.get? other = some (.file content) ↔ if p.reached fs.working = other then written = content
      else fs.tree.get? other = some (.file content) := by
  obtain ⟨grown, hgrown, hdone⟩ := fs.writeDeep_written p written
  rw [h] at hdone
  cases hdone with
  | done target _ htarget hfile hother =>
    rw [Path.reached_of_fold? htarget]
    split
    · rename_i hsame
      rw [← hsame, hfile]
      simp
    · rename_i hne
      rw [hother other fun e => hne e.symm]
      exact hgrown.file_iff other content

/-- What artifacts that are written below a place leave at a location: the text of the last of them
    that leads there. -/
def delivered (place other : Location) : List Artifact → Option ByteArray
  | [] => none
  | a :: rest => (delivered place other rest).or
      (if a.path.reached place = other then some a.text.toUTF8 else none)

theorem delivered_eq_none {place other : Location} : ∀ {artifacts : List Artifact},
    delivered place other artifacts = none ↔ ∀ a ∈ artifacts, a.path.reached place ≠ other
  | [] => by simp [delivered]
  | a :: rest => by
      rw [delivered, Option.or_eq_none_iff, delivered_eq_none, List.forall_mem_cons, and_comm]
      simp

/-- **A location has the text of the last artifact that was written there**, or else the file it had
before. -/
theorem writeArtifacts_file_iff {dir : Path} {other : Location} {content : ByteArray} :
    ∀ (artifacts : List Artifact) (fs : FileSystem),
      (writeArtifacts fs dir artifacts).result = .ok () →
      ((writeArtifacts fs dir artifacts).tree.get? other = some (.file content) ↔
        delivered (dir.reached fs.working) other artifacts = some content
          ∨ delivered (dir.reached fs.working) other artifacts = none
            ∧ fs.tree.get? other = some (.file content))
  | [], fs, _ => by
      have htree : (writeArtifacts fs dir []).tree = fs.tree := rfl
      rw [htree, delivered]
      simp
  | a :: rest, fs, hok => by
      rcases writeArtifacts_cons fs dir a rest with ⟨e, _, hresult, _⟩ | ⟨t, hdeep, hresult, htree⟩
      · cases hok.symm.trans hresult
      · have hrest : (writeArtifacts (fs.withTree t) dir rest).tree.get? other
              = some (.file content) ↔
            delivered (dir.reached fs.working) other rest = some content
              ∨ delivered (dir.reached fs.working) other rest = none
                ∧ t.get? other = some (.file content) :=
          writeArtifacts_file_iff rest (fs.withTree t) (hresult.symm.trans hok)
        rw [htree, hrest, writeDeep_file hdeep other content, Path.reached_join, delivered]
        cases delivered (dir.reached fs.working) other rest with
        | some later => simp
        | none => by_cases hthere : a.path.reached (dir.reached fs.working) = other <;> simp [hthere]

/-! ## 3. Clearing -/

/-- Something is missing on the way of a path, or the path is empty. -/
def Interrupted (fs : FileSystem) (dir : Path) : Prop :=
  dir.text = "" ∨ ∃ missing, dir.Passes fs.working missing ∧ fs.tree.get? missing = none

section Clearing

variable {fs : FileSystem} {dir : Path} {other : Location} {content : ByteArray}

/-- A removal that succeeds has found nothing exactly if the way was interrupted. -/
theorem interrupted_iff (h : (clearOutput fs dir).result = .ok ()) :
    Interrupted fs dir ↔ fs.find dir = .error .notFound := by
  constructor
  · intro hinterrupted
    rcases clearable_of_ok h with hnone | ⟨place, hfind⟩
    · exact hnone
    · -- the way to a directory that is found has directories only
      obtain ⟨hfault, _, hpasses⟩ := FileSystem.find_directory_iff.1 hfind
      rcases hinterrupted with hempty | ⟨missing, hmissing, hnone⟩
      · exact absurd hempty (Path.text_ne_of_fault? hfault)
      · cases (hpasses missing hmissing).symm.trans hnone
  · intro hnone
    rcases FileSystem.find_eq_notFound hnone with hempty | hwalk | ⟨there, hwalk, hthere⟩
    · exact Or.inl hempty
    · obtain ⟨first, hfirst, hmissing⟩ := FileTree.walk_eq_notFound hwalk
      exact Or.inr ⟨_, ⟨first, hfirst, rfl⟩, hmissing⟩
    · exact Or.inr ⟨there, ⟨dir.steps, List.prefix_rfl, FileTree.walk_eq_ok hwalk⟩, hthere⟩

/-- **The removal leaves the files below the directory exactly if the way there is interrupted.** -/
theorem clearOutput_file_iff (h : (clearOutput fs dir).result = .ok ())
    (hbelow : dir.reached fs.working <+: other) :
    (clearOutput fs dir).tree.get? other = some (.file content) ↔
      Interrupted fs dir ∧ fs.tree.get? other = some (.file content) := by
  rw [clearOutput_tree, interrupted_iff h]
  rcases clearable_of_ok h with hnone | ⟨place, hfind⟩
  · rw [FileSystem.removeDirectory_of_error hnone]
    exact (and_iff_right hnone).symm
  · rw [Path.reached_of_fold? (FileSystem.find_spec hfind).1] at hbelow
    refine iff_of_false ((FileSystem.removeDirectory_emptied hfind).not_file hbelow content) ?_
    rintro ⟨hnone, _⟩
    cases hfind.symm.trans hnone

/-- **Where a path without `..` leads to a file or above one, its way is not interrupted.** -/
theorem not_interrupted (hne : dir.text ≠ "") (hup : Component.up ∉ dir.components)
    (hbelow : dir.reached fs.working <+: other)
    (hfile : fs.tree.get? other = some (.file content)) : ¬ Interrupted fs dir := by
  rintro (hempty | ⟨missing, hpasses, hnone⟩)
  · exact hne hempty
  · obtain ⟨names, hnames⟩ := Path.steps_eq_names (Path.up_not_mem_steps hup)
    have habove : missing <+: dir.reached fs.working := by
      rw [Path.reached, hnames, Path.foldl_foldStep_names]
      exact hpasses.isPrefix hnames
    cases hfile.symm.trans (FileTree.get?_eq_none_below (habove.trans hbelow) hnone)

/-- No file is left below a directory that is cleared: the way there is not interrupted, or there is
no file. -/
def ClearsAll (fs : FileSystem) (dir : Path) : Prop :=
  Interrupted fs dir → ∀ other content, dir.reached fs.working <+: other →
    fs.tree.get? other ≠ some (.file content)

/-- A path without `..` clears all. -/
theorem clearsAll_of_direct (hne : dir.text ≠ "") (hup : Component.up ∉ dir.components) :
    ClearsAll fs dir :=
  fun hinterrupted _ _ hbelow hfile => not_interrupted hne hup hbelow hfile hinterrupted

theorem ClearsAll.not_file (h : ClearsAll fs dir) (hclear : (clearOutput fs dir).result = .ok ())
    (hbelow : dir.reached fs.working <+: other) :
    (clearOutput fs dir).tree.get? other ≠ some (.file content) := by
  intro hfile
  obtain ⟨hinterrupted, hthere⟩ := (clearOutput_file_iff hclear hbelow).1 hfile
  exact h hinterrupted other content hbelow hthere

end Clearing

/-! ## 4. Clearing and writing -/

/-- The files below a place are those of artifacts, each with the text that was written last. -/
def Holds (place : Location) (artifacts : List Artifact) (t : FileTree) : Prop :=
  ∀ other content, place <+: other →
    (t.get? other = some (.file content) ↔ delivered place other artifacts = some content)

/-- What a directory that was cleared and written into has received. -/
structure Received (fs : FileSystem) (dir : Path) (artifacts : List Artifact)
    (after : FileTree) : Prop where
  /-- Every artifact is written below the directory. -/
  below : ∀ a ∈ artifacts, dir.reached fs.working <+: a.path.reached (dir.reached fs.working)
  /-- A file below the directory is that of an artifact, or it was there and the way to the directory
      was interrupted. -/
  file_iff : ∀ other content, dir.reached fs.working <+: other →
    (after.get? other = some (.file content) ↔
      delivered (dir.reached fs.working) other artifacts = some content
        ∨ delivered (dir.reached fs.working) other artifacts = none
          ∧ Interrupted fs dir ∧ fs.tree.get? other = some (.file content))
  /-- The directory holds the artifacts alone unless the way was interrupted and another file was
      there. -/
  holds_iff : Holds (dir.reached fs.working) artifacts after ↔ (Interrupted fs dir →
    ∀ other content, dir.reached fs.working <+: other →
      fs.tree.get? other = some (.file content) →
      ∃ a ∈ artifacts, a.path.reached (dir.reached fs.working) = other)
  direct : dir.text ≠ "" → Component.up ∉ dir.components →
    Holds (dir.reached fs.working) artifacts after

section Writing

variable {fs : FileSystem} {dir : Path} {artifacts : List Artifact} {after : FileTree}

/-- What stays beside the artifacts is all that keeps a directory from holding them alone. -/
theorem holds_iff_of_file_iff
    (h : ∀ other content, dir.reached fs.working <+: other →
      (after.get? other = some (.file content) ↔
        delivered (dir.reached fs.working) other artifacts = some content
          ∨ delivered (dir.reached fs.working) other artifacts = none
            ∧ Interrupted fs dir ∧ fs.tree.get? other = some (.file content))) :
    Holds (dir.reached fs.working) artifacts after ↔ (Interrupted fs dir →
      ∀ other content, dir.reached fs.working <+: other →
        fs.tree.get? other = some (.file content) →
        ∃ a ∈ artifacts, a.path.reached (dir.reached fs.working) = other) := by
  constructor
  · intro hholds hinterrupted other content hbelow hfile
    by_contra hno
    have hnone : delivered (dir.reached fs.working) other artifacts = none :=
      delivered_eq_none.2 fun a ha hsame => hno ⟨a, ha, hsame⟩
    have hstays : after.get? other = some (.file content) :=
      (h other content hbelow).2 (Or.inr ⟨hnone, hinterrupted, hfile⟩)
    cases hnone.symm.trans ((hholds other content hbelow).1 hstays)
  · intro hall other content hbelow
    rw [h other content hbelow]
    refine or_iff_left ?_
    rintro ⟨hnone, hinterrupted, hfile⟩
    obtain ⟨a, ha, hsame⟩ := hall hinterrupted other content hbelow hfile
    exact delivered_eq_none.1 hnone a ha hsame

/-- **A directory that is cleared and written into holds the artifacts alone, unless the way to it
was interrupted and another file was below it.** Such a file stays; that takes a path with `..`, or
the empty one. -/
theorem received_of_written (hnames : ∀ a ∈ artifacts, a.path.OfNames)
    (hclear : (clearOutput fs dir).result = .ok ())
    (hwritten : (writeArtifacts (fs.withTree (clearOutput fs dir).tree) dir artifacts).result
      = .ok ()) :
    Received fs dir artifacts
      (writeArtifacts (fs.withTree (clearOutput fs dir).tree) dir artifacts).tree := by
  have hfile : ∀ other content, dir.reached fs.working <+: other →
      ((writeArtifacts (fs.withTree (clearOutput fs dir).tree) dir artifacts).tree.get? other
          = some (.file content) ↔
        delivered (dir.reached fs.working) other artifacts = some content
          ∨ delivered (dir.reached fs.working) other artifacts = none
            ∧ Interrupted fs dir ∧ fs.tree.get? other = some (.file content)) := by
    intro other content hbelow
    rw [writeArtifacts_file_iff artifacts _ hwritten, ← clearOutput_file_iff hclear hbelow]
    rfl
  constructor
  case below => exact fun a ha => (hnames a ha).isPrefix _
  case file_iff => exact hfile
  case holds_iff => exact holds_iff_of_file_iff hfile
  case direct =>
    intro hne hup
    refine (holds_iff_of_file_iff hfile).2 fun hinterrupted other content hbelow hthere => ?_
    exact absurd hthere (clearsAll_of_direct hne hup hinterrupted other content hbelow)

end Writing

/-- A directory with a file of an earlier run, to which a path leads that passes a missing one. -/
def outdated : FileSystem :=
  ⟨.ofEntries [(["out"], .directory), (["out", "stale.hpp"], .file "old".toUTF8)], []⟩

/-- The removal succeeds and removes nothing, the artifact is written, and both files are there. -/
theorem received_outdated :
    let artifacts : List Artifact := [⟨.valueClass, ⟨"class/A.hpp"⟩, "new"⟩]
    let run := writeArtifacts (outdated.withTree (clearOutput outdated ⟨"gone/../out"⟩).tree)
      ⟨"gone/../out"⟩ artifacts
    (clearOutput outdated ⟨"gone/../out"⟩).result = .ok () ∧ run.result = .ok ()
      ∧ Received outdated ⟨"gone/../out"⟩ artifacts run.tree
      ∧ run.tree.get? ["out", "stale.hpp"] = some (.file "old".toUTF8)
      ∧ ¬ Holds ["out"] artifacts run.tree := by
  intro artifacts run
  have hclear : (clearOutput outdated ⟨"gone/../out"⟩).result = .ok () := by decide +kernel
  have hwritten : run.result = .ok () := by decide +kernel
  have hnames : ∀ a ∈ artifacts, a.path.OfNames := by
    intro a ha
    obtain rfl := List.mem_singleton.1 ha
    have hcomponents : (Path.mk "class/A.hpp").components = [.name "class", .name "A.hpp"] := by
      decide +kernel
    intro c hc
    rw [hcomponents] at hc
    rcases List.mem_pair.1 hc with rfl | rfl
    · exact ⟨_, rfl⟩
    · exact ⟨_, rfl⟩
  have hreceived := received_of_written hnames hclear hwritten
  have hplace : Path.reached outdated.working ⟨"gone/../out"⟩ = ["out"] := by decide +kernel
  have hinterrupted : Interrupted outdated ⟨"gone/../out"⟩ :=
    (interrupted_iff hclear).2 (by decide +kernel)
  have hstays : run.tree.get? ["out", "stale.hpp"] = some (.file "old".toUTF8) := by
    refine (hreceived.file_iff _ _ ?_).2 (Or.inr ⟨?_, hinterrupted, by decide +kernel⟩)
    · rw [hplace]
      exact List.prefix_append ["out"] ["stale.hpp"]
    · rw [hplace]
      decide +kernel
  refine ⟨hclear, hwritten, hreceived, hstays, fun hholds => ?_⟩
  have hdelivered := (hholds _ _ (List.prefix_append ["out"] ["stale.hpp"])).1 hstays
  have hnone : delivered ["out"] ["out", "stale.hpp"] artifacts = none := by decide +kernel
  cases hnone.symm.trans hdelivered

end Project

end MasterSchema
