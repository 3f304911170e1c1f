import MasterSchema.FileTree.Change
import MasterSchema.Proofs.FileTree.Resolution

/-!
# What changes leave behind

Each change to a file tree is seen as a relation between the tree before it and the tree after it,
location by location, whether it succeeds or not.

* making directories lets a tree grow (`GrownBy`): new entries are directories, stand where nothing
  stood, and stand on the way of the path that was asked for;
* writing a file changes the location the path folds to and no other (`Written`);
* removing a directory empties a location (`Emptied`): nothing is below it, all else is as before.
-/

namespace MasterSchema

/-! ## 1. Growing -/

/-- The second tree has what the first one has, and besides it directories at some of the allowed
    locations. -/
def GrownBy (allowed : Location → Prop) (t t' : FileTree) : Prop :=
  ∀ place, t'.get? place = t.get? place ∨
    (allowed place ∧ t.get? place = none ∧ t'.get? place = some .directory)

namespace GrownBy

variable {allowed allowed' : Location → Prop} {t t' t'' : FileTree}

theorem refl (allowed : Location → Prop) (t : FileTree) : GrownBy allowed t t :=
  fun _ => Or.inl rfl

theorem mono (h : GrownBy allowed t t') (hsub : ∀ place, allowed place → allowed' place) :
    GrownBy allowed' t t' :=
  fun place => (h place).imp_right fun ⟨ha, hb⟩ => ⟨hsub place ha, hb⟩

theorem trans (h : GrownBy allowed t t') (h' : GrownBy allowed t' t'') :
    GrownBy allowed t t'' := by
  intro place
  rcases h' place with he | ⟨ha, hn, hd⟩
  · rw [he]; exact h place
  · rcases h place with he | ⟨_, _, hd'⟩
    · exact Or.inr ⟨ha, he ▸ hn, hd⟩
    · rw [hn] at hd'; cases hd'

/-- What stands somewhere stays. -/
theorem get?_of_some (h : GrownBy allowed t t') {place : Location} {e : Entry}
    (hg : t.get? place = some e) : t'.get? place = some e := by
  rcases h place with he | ⟨_, hn, _⟩
  · rw [he]; exact hg
  · rw [hn] at hg; cases hg

/-- Growing makes no file. -/
theorem file_iff (h : GrownBy allowed t t') (place : Location) (content : ByteArray) :
    t'.get? place = some (.file content) ↔ t.get? place = some (.file content) := by
  refine ⟨fun hg => ?_, h.get?_of_some⟩
  rcases h place with he | ⟨_, _, hd⟩
  · rw [← he]; exact hg
  · rw [hd] at hg; cases hg

end GrownBy

/-! ## 2. Directories -/

namespace Path

/-- A location that a path passes: the fold of some of its first steps. -/
def Passes (working : Location) (p : Path) (place : Location) : Prop :=
  ∃ first, first <+: p.steps ∧ place = first.foldl foldStep (p.origin working)

theorem passes_of_steps {working : Location} {p q : Path} (hs : q.steps <+: p.steps)
    (ha : q.isAbsolute = p.isAbsolute) {place : Location} (h : q.Passes working place) :
    p.Passes working place := by
  obtain ⟨first, hf, rfl⟩ := h
  exact ⟨first, hf.trans hs, by rw [origin, origin, ha]⟩

theorem passes_of_fold? {working : Location} {p : Path} {place : Location}
    (h : p.fold? working = some place) : p.Passes working place := by
  rw [fold?_eq (text_ne_of_fold? h)] at h
  exact ⟨p.steps, List.prefix_rfl, (Option.some.inj h).symm⟩

/-- A path without `..` passes only what is above the place it leads to. -/
theorem Passes.isPrefix {working : Location} {p : Path} {names : List String}
    (hn : p.steps = names.map Component.name) {place : Location} (h : p.Passes working place) :
    place <+: p.origin working ++ names := by
  obtain ⟨first, hf, rfl⟩ := h
  rw [hn, List.prefix_iff_eq_take, ← List.map_take] at hf
  rw [hf, foldl_foldStep_names]
  exact (List.prefix_append_right_inj _).2 (List.take_prefix _ _)

end Path

namespace FileSystem

theorem place_grownBy (fs : FileSystem) (dir : Location) (name : String) :
    GrownBy (· = dir ++ [name]) fs.tree (fs.place dir name .directory).tree := by
  unfold place
  split
  · rename_i hroom
    intro other
    rw [FileTree.get?_add]
    by_cases ho : other = dir ++ [name]
    · rw [if_pos ho]
      exact Or.inr ⟨ho, ho ▸ hroom.2.2, rfl⟩
    · rw [if_neg ho]
      exact Or.inl rfl
  · split <;> exact GrownBy.refl _ _

theorem createDirectory_grownBy (fs : FileSystem) (p : Path) :
    GrownBy (p.Passes fs.working) fs.tree (fs.createDirectory p).tree := by
  unfold createDirectory
  split
  · exact GrownBy.refl _ _
  · rename_i dir name slashed ht
    refine (fs.place_grownBy dir name).mono fun other ho => ?_
    rw [ho]
    exact Path.passes_of_fold? (target_spec ht).1
  · exact GrownBy.refl _ _

theorem madeOrThere_tree (fs : FileSystem) (p : Path) (made : Changed Unit) :
    (fs.madeOrThere p made).tree = made.tree := by
  unfold madeOrThere
  split
  · rfl
  · split <;> rfl

/-- Making the first directory of a list touches only what the paths of the list pass. -/
theorem createFirst_grownBy {allowed : Location → Prop} : ∀ (ps : List Path) (fs : FileSystem),
    (∀ p ∈ ps, ∀ place, p.Passes fs.working place → allowed place) →
      GrownBy allowed fs.tree (fs.createFirst ps).tree
  | [], _, _ => GrownBy.refl _ _
  | p :: above, fs, h => by
      have hmake : ∀ t, GrownBy allowed t ((fs.withTree t).createDirectory p).tree := fun t =>
        ((fs.withTree t).createDirectory_grownBy p).mono (h p List.mem_cons_self)
      have ih := createFirst_grownBy above fs fun q hq => h q (List.mem_cons_of_mem _ hq)
      unfold createFirst
      split
      · exact GrownBy.refl _ _
      · split
        · split
          · rename_i ha
            rw [ha] at ih
            exact ih
          · rename_i ha
            rw [ha] at ih
            rw [madeOrThere_tree]
            exact ih.trans (hmake _)
        · rw [madeOrThere_tree]
          exact hmake fs.tree

/-- **Making a directory and those above it only adds directories, and only where the path
    passes.** -/
theorem createDirectories_grownBy (fs : FileSystem) (p : Path) :
    GrownBy (p.Passes fs.working) fs.tree (fs.createDirectories p).tree :=
  createFirst_grownBy p.ancestors fs fun _ hq _ hp =>
    Path.passes_of_steps (Path.ancestors_spec hq).1 (Path.ancestors_spec hq).2 hp

/-! ## 3. Files -/

/-- What a write leaves of a tree: it fails and leaves all as it was, or the location the path
    folds to is a file of the content and nothing else has changed. -/
inductive Written (fs : FileSystem) (p : Path) (content : ByteArray) (t : FileTree) :
    Changed Unit → Prop where
  | failed (e : FileFault) : Written fs p content t ⟨.error e, t⟩
  | done (place : Location) (t' : FileTree) (hp : p.fold? fs.working = some place)
      (hfile : t'.get? place = some (.file content))
      (hother : ∀ other, other ≠ place → t'.get? other = t.get? other) :
      Written fs p content t ⟨.ok (), t'⟩

theorem writeFile_written (fs : FileSystem) (p : Path) (content : ByteArray) :
    Written fs p content fs.tree (fs.writeFile p content) := by
  unfold writeFile
  split
  · exact .failed _
  · rename_i dir name ht
    have hp := (target_spec ht).1
    split
    · unfold place
      split
      · rename_i hroom
        refine .done (dir ++ [name]) _ hp ?_ fun other ho => ?_
        · rw [FileTree.get?_add, if_pos rfl]
        · rw [FileTree.get?_add, if_neg ho]
      · split <;> exact .failed _
    · exact .failed _
    · rename_i old hg
      exact .done (dir ++ [name]) _ hp (FileTree.get?_overwrite_self hg) fun _ ho =>
        FileTree.get?_overwrite_of_ne ho
  · exact .failed _

/-- **A deep write lets the tree grow on the way of its path, then writes one file or fails.** -/
theorem writeDeep_written (fs : FileSystem) (p : Path) (content : ByteArray) :
    ∃ grown, GrownBy (p.Passes fs.working) fs.tree grown
      ∧ Written fs p content grown (fs.writeDeep p content) := by
  unfold writeDeep
  split
  · exact ⟨fs.tree, GrownBy.refl _ _, fs.writeFile_written p content⟩
  · rename_i dir hd
    obtain ⟨hs, ha⟩ := Path.parent_spec hd
    have hgrown : GrownBy (p.Passes fs.working) fs.tree (fs.createDirectories dir).tree :=
      (fs.createDirectories_grownBy dir).mono fun place hp =>
        Path.passes_of_steps (hs ▸ List.dropLast_prefix p.steps) ha hp
    split
    · rename_i e t hc
      rw [hc] at hgrown
      exact ⟨t, hgrown, .failed e⟩
    · rename_i t hc
      rw [hc] at hgrown
      refine ⟨t, hgrown, ?_⟩
      have hw := (fs.withTree t).writeFile_written p content
      generalize (fs.withTree t).writeFile p content = out at hw
      cases hw with
      | failed e => exact .failed e
      | done place t' hp hfile hother => exact .done place t' hp hfile hother

/-- A deep write makes, changes and takes away no file but the one its path folds to. -/
theorem writeDeep_file_iff (fs : FileSystem) {p : Path} {place : Location}
    (hne : p.fold? fs.working ≠ some place) (content written : ByteArray) :
    (fs.writeDeep p written).tree.get? place = some (.file content) ↔
      fs.tree.get? place = some (.file content) := by
  obtain ⟨grown, hgrown, hw⟩ := fs.writeDeep_written p written
  generalize fs.writeDeep p written = out at hw
  cases hw with
  | failed e => exact hgrown.file_iff place content
  | done target t' hp _ hother =>
    have hplace : place ≠ target := by
      rintro rfl
      exact hne hp
    rw [hother place hplace]
    exact hgrown.file_iff place content

/-- A deep write leaves alone what its path does not pass. -/
theorem writeDeep_unpassed (fs : FileSystem) {p : Path} {place : Location}
    (h : ¬ p.Passes fs.working place) (content : ByteArray) :
    (fs.writeDeep p content).tree.get? place = fs.tree.get? place := by
  obtain ⟨grown, hgrown, hw⟩ := fs.writeDeep_written p content
  have hsame : grown.get? place = fs.tree.get? place :=
    (hgrown place).resolve_right fun hnew => h hnew.1
  generalize fs.writeDeep p content = out at hw
  cases hw with
  | failed e => exact hsame
  | done target t' hp _ hother =>
    refine (hother place ?_).trans hsame
    rintro rfl
    exact h (Path.passes_of_fold? hp)

/-- A deep write that succeeds leaves its file where its path folds to. -/
theorem writeDeep_eq_ok {fs : FileSystem} {p : Path} {content : ByteArray}
    (h : (fs.writeDeep p content).result = .ok ()) :
    ∃ place, p.fold? fs.working = some place
      ∧ (fs.writeDeep p content).tree.get? place = some (.file content) := by
  obtain ⟨grown, _, hw⟩ := fs.writeDeep_written p content
  generalize fs.writeDeep p content = out at h hw
  cases hw with
  | failed e => cases h
  | done place t' hp hfile _ => exact ⟨place, hp, hfile⟩

/-- A deep write that fails leaves all files as they were. -/
theorem writeDeep_eq_error {fs : FileSystem} {p : Path} {written : ByteArray} {e : FileFault}
    (h : (fs.writeDeep p written).result = .error e) (place : Location) (content : ByteArray) :
    (fs.writeDeep p written).tree.get? place = some (.file content) ↔
      fs.tree.get? place = some (.file content) := by
  obtain ⟨grown, hgrown, hw⟩ := fs.writeDeep_written p written
  generalize fs.writeDeep p written = out at h hw
  cases hw with
  | failed e => exact hgrown.file_iff place content
  | done => cases h

end FileSystem

/-! ## 4. Removal -/

/-- Below a location nothing is left, at it there is no file, and elsewhere all is as before. -/
structure Emptied (place : Location) (t t' : FileTree) : Prop where
  below : ∀ other, place <+: other → other ≠ place → t'.get? other = none
  noFile : ∀ content, t'.get? place ≠ some (.file content)
  outside : ∀ other, ¬ place <+: other → t'.get? other = t.get? other

theorem Emptied.not_file {place : Location} {t t' : FileTree} (h : Emptied place t t')
    {other : Location} (hp : place <+: other) (content : ByteArray) :
    t'.get? other ≠ some (.file content) := by
  by_cases ho : other = place
  · rw [ho]; exact h.noFile content
  · rw [h.below other hp ho]; exact fun e => nomatch e

/-- Where nothing stands, all is emptied. -/
theorem FileTree.emptied_of_none {t : FileTree} {place : Location} (h : t.get? place = none) :
    Emptied place t t where
  below _ hp _ := get?_eq_none_below hp h
  noFile content hc := by cases h.symm.trans hc
  outside _ _ := rfl

theorem FileTree.removeBelow_emptied {t : FileTree} {place : Location}
    (h : t.get? place = some .directory) : Emptied place t (t.removeBelow place) where
  below other hp ho := by rw [get?_removeBelow, if_pos ⟨hp, ho⟩]
  noFile content := by
    rw [get?_removeBelow, if_neg fun hc => hc.2 rfl, h]
    exact fun e => nomatch e
  outside other ho := by rw [get?_removeBelow, if_neg fun hc => ho hc.1]

namespace FileSystem

/-- Removing an empty directory changes at most the location the path folds to. -/
theorem removeEmpty_emptied {fs : FileSystem} {p : Path} {place : Location} {t : FileTree}
    (hp : p.fold? fs.working = some place) (h : Emptied place t fs.tree) :
    Emptied place t (fs.removeEmpty p).tree := by
  unfold removeEmpty
  split
  · exact h
  · exact h
  · exact h
  · exact h
  · rename_i dir name slashed ht
    split
    · exact h
    · exact h
    · split
      · exact h
      · rename_i hg hb
        have hne : dir ++ [name] ≠ [] :=
          List.append_ne_nil_of_right_ne_nil dir (List.cons_ne_nil name [])
        obtain rfl : dir ++ [name] = place :=
          Option.some.inj ((target_spec ht).1.symm.trans hp)
        constructor
        · intro other ho hn
          rw [FileTree.get?_remove hne, if_pos ho]
        · intro content
          rw [FileTree.get?_remove hne, if_pos List.prefix_rfl]
          exact fun e => nomatch e
        · intro other ho
          rw [FileTree.get?_remove hne, if_neg ho]
          exact h.outside other ho

/-- **Removing a directory empties the location the path is found at.** -/
theorem removeDirectory_emptied {fs : FileSystem} {p : Path} {place : Location}
    (h : fs.find p = .ok (place, .directory)) :
    Emptied place fs.tree (fs.removeDirectory p).tree := by
  obtain ⟨hp, hd⟩ := find_spec h
  have hempty : Emptied place fs.tree
      ((fs.withTree (fs.tree.removeBelow place)).removeEmpty p).tree :=
    removeEmpty_emptied hp (FileTree.removeBelow_emptied hd)
  simp only [removeDirectory, h]
  split
  · rename_i t ht
    rw [ht] at hempty
    exact hempty
  · exact hempty

theorem removeDirectory_of_error {fs : FileSystem} {p : Path} {e : FileFault}
    (h : fs.find p = .error e) : fs.removeDirectory p = ⟨.error e, fs.tree⟩ := by
  simp only [removeDirectory, h]
  rfl

theorem removeDirectory_of_file {fs : FileSystem} {p : Path} {place : Location}
    {content : ByteArray} (h : fs.find p = .ok (place, .file content)) :
    fs.removeDirectory p = ⟨.error .notDirectory, fs.tree⟩ := by
  simp only [removeDirectory, h]
  rfl

/-- Removing a directory leaves alone what is not below it. -/
theorem removeDirectory_outside {fs : FileSystem} {p : Path} {place : Location}
    (h : ∀ out, fs.find p = .ok (out, .directory) → ¬ out <+: place) :
    (fs.removeDirectory p).tree.get? place = fs.tree.get? place := by
  cases hf : fs.find p with
  | error e => rw [removeDirectory_of_error hf]
  | ok found =>
    obtain ⟨out, e⟩ := found
    cases e with
    | directory => exact (removeDirectory_emptied hf).outside place (h out hf)
    | file content => rw [removeDirectory_of_file hf]

end FileSystem

end MasterSchema
