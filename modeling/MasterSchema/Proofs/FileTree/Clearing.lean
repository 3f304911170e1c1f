import MasterSchema.Proofs.FileTree.Repetition

/-!
# Taking a directory away

A path without `..` whose text ends in a name removes the directory that it finds and all below it
(`removeDirectory_of_find`): nothing of what it passes is lost when the directory is emptied, so the
empty directory is found once more.

On trees that agree where its path leads through, a removal comes to the same, whatever the path
(`removeDirectory_sameOn`): the directory is emptied before it is asked what is below it.
-/

namespace MasterSchema

/-- The second tree has nothing at a location or below it, and is the first tree elsewhere. -/
def Cleared (place : Location) (t t' : FileTree) : Prop :=
  ∀ other, t'.get? other = if place <+: other then none else t.get? other

theorem Cleared.same {place : Location} {t t' u u' : FileTree} (h : Cleared place t u)
    (h' : Cleared place t' u') (ht : ∀ other, ¬ place <+: other → t.get? other = t'.get? other)
    (other : Location) : u.get? other = u'.get? other := by
  rw [h other, h' other]
  split
  · rfl
  · rename_i hother
    exact ht other hother

theorem FileTree.hasBelow_removeBelow (t : FileTree) (place : Location) :
    (t.removeBelow place).hasBelow place = false := by
  rw [hasBelow, List.any_eq_false]
  intro x hx
  rw [Bool.and_eq_true_iff, List.isPrefixOf_iff_prefix, bne_iff_ne]
  intro hbelow
  have hget := get?_of_mem (t := t.removeBelow place) (e := x.2) hx
  rw [get?_removeBelow, if_pos hbelow] at hget
  cases hget

/-! ## 1. Paths without `..` -/

namespace FileSystem

/-- A path that leads to a directory and ends in a name leads to that name in a directory. -/
theorem target_of_find {fs : FileSystem} {p : Path} {place : Location} {last : String}
    (hlast : p.namedParts.getLast? = some last)
    (hname : Path.component? last = some (.name last))
    (h : fs.find p = .ok (place, .directory)) :
    ∃ dir, place = dir ++ [last] ∧ fs.target p = .ok (.named dir last p.endsInSlash) := by
  obtain ⟨hfault, hfold, hpasses⟩ := find_directory_iff.1 h
  rw [Path.fold?_eq (Path.text_ne_of_fault? hfault), Path.steps_eq_front hlast, hname,
    List.foldl_append] at hfold
  have hfront : ∀ first, first <+: p.namedParts.dropLast.filterMap Path.component? →
      fs.tree.get? (first.foldl Path.foldStep (fs.start p)) = some .directory :=
    fun first hfirst => hpasses _ ⟨first, hfirst.trans p.steps_front, rfl⟩
  refine ⟨_, (Option.some.inj hfold).symm, ?_⟩
  refine target_of_walk hfault hlast ?_ ?_ (FileTree.walk_of_directories hfront)
    (hfront _ List.prefix_rfl)
  · rintro rfl
    cases hname
  · rintro rfl
    cases hname

/-- Above what stands somewhere a path without `..` finds directories. -/
theorem find_above {fs : FileSystem} {p : Path} {place names : Location} {e : Entry}
    (hup : Component.up ∉ p.steps) (hfault : p.fault? = none)
    (hfold : p.fold? fs.working = some place) (hne : names ≠ [])
    (h : fs.tree.get? (place ++ names) = some e) : fs.find p = .ok (place, .directory) := by
  obtain ⟨steps, hsteps⟩ := Path.steps_eq_names hup
  refine find_directory_iff.2 ⟨hfault, hfold, fun other hpasses => ?_⟩
  have hprefix := hpasses.isPrefix hsteps
  rw [Path.eq_of_fold?_names hsteps hfold] at hprefix
  obtain ⟨rest, rfl⟩ := hprefix
  rw [List.append_assoc] at h
  exact FileTree.get?_above (List.append_ne_nil_of_right_ne_nil rest hne) h

/-- **Removing a directory whose path ends in a name takes it away with all below it**, if the path
has no `..`: what is passed is still there when the directory is empty. -/
theorem removeDirectory_of_find {fs : FileSystem} {p : Path} {place : Location} {last : String}
    (hup : Component.up ∉ p.steps) (hlast : p.namedParts.getLast? = some last)
    (hname : Path.component? last = some (.name last))
    (h : fs.find p = .ok (place, .directory)) :
    ∃ t, fs.removeDirectory p = ⟨.ok (), t⟩ ∧ Cleared place fs.tree t := by
  obtain ⟨hfold, hdir⟩ := find_spec h
  have hempty : (fs.withTree (fs.tree.removeBelow place)).find p = .ok (place, .directory) := by
    refine (find_congr_above hup hfold fun other hprefix => ?_).trans h
    refine FileTree.get?_removeBelow other |>.trans (if_neg fun hbelow => hbelow.2 ?_)
    exact hprefix.eq_of_length_le hbelow.1.length_le
  obtain ⟨dir, rfl, htarget⟩ := target_of_find hlast hname hempty
  have hget : (fs.tree.removeBelow (dir ++ [last])).get? (dir ++ [last]) = some .directory :=
    (find_spec hempty).2
  have hne : dir ++ [last] ≠ [] := List.append_ne_nil_of_right_ne_nil dir (List.cons_ne_nil last [])
  refine ⟨(fs.tree.removeBelow (dir ++ [last])).remove (dir ++ [last]), ?_, fun other => ?_⟩
  · have hremoved : (fs.withTree (fs.tree.removeBelow (dir ++ [last]))).removeEmpty p
        = ⟨.ok (), (fs.tree.removeBelow (dir ++ [last])).remove (dir ++ [last])⟩ := by
      unfold removeEmpty
      rw [htarget]
      dsimp only [withTree]
      rw [hget]
      exact if_neg (by rw [FileTree.hasBelow_removeBelow]; exact Bool.false_ne_true)
    simp only [removeDirectory, h, hremoved]
  · rw [FileTree.get?_remove hne, FileTree.get?_removeBelow]
    by_cases hprefix : dir ++ [last] <+: other
    · rw [if_pos hprefix, if_pos hprefix]
    · rw [if_neg hprefix, if_neg hprefix, if_neg fun hbelow => hprefix hbelow.1]

end FileSystem

/-! ## 2. Trees that agree where the path leads through -/

section SameOn

variable {seen : Location → Prop} {t t' : FileTree} (h : t.AgreeOn seen t')

include h

theorem FileTree.AgreeOn.removeBelow (place : Location) :
    (t.removeBelow place).AgreeOn seen (t'.removeBelow place) := by
  intro other hother
  rw [get?_removeBelow, get?_removeBelow, h other hother]

theorem FileTree.AgreeOn.remove {place : Location} (hne : place ≠ []) :
    (t.remove place).AgreeOn seen (t'.remove place) := by
  intro other hother
  rw [get?_remove hne, get?_remove hne, h other hother]

namespace FileSystem

variable {working : Location} {p : Path} (hp : p.Within working seen)

include hp

/-- What is below the directory decides too, so nothing may be. -/
theorem removeEmpty_sameOn (hempty : ∀ place, p.fold? working = some place →
      t.hasBelow place = false ∧ t'.hasBelow place = false) :
    ((FileSystem.mk t working).removeEmpty p).SameOn seen
      ((FileSystem.mk t' working).removeEmpty p) := by
  unfold removeEmpty
  rw [target_congr_within h hp]
  split
  · exact refuse_sameOn h _
  · exact refuse_sameOn h _
  · exact refuse_sameOn h _
  · exact refuse_sameOn h _
  · rename_i dir name slashed htarget
    obtain ⟨hfold, _⟩ := target_spec htarget
    obtain ⟨hbelow, hbelow'⟩ := hempty _ hfold
    have hne : dir ++ [name] ≠ [] :=
      List.append_ne_nil_of_right_ne_nil dir (List.cons_ne_nil name [])
    dsimp only
    rw [h _ (hp _ (Path.passes_of_fold? hfold)), hbelow, hbelow']
    split
    · exact refuse_sameOn h _
    · exact refuse_sameOn h _
    · exact ⟨rfl, h.remove hne⟩

/-- **A directory is taken away in the same way from trees that agree where its path leads
through.** -/
theorem removeDirectory_sameOn :
    ((FileSystem.mk t working).removeDirectory p).SameOn seen
      ((FileSystem.mk t' working).removeDirectory p) := by
  have hsame := find_congr_within h hp
  cases hfind : (FileSystem.mk t' working).find p with
  | error fault =>
    rw [removeDirectory_of_error hfind, removeDirectory_of_error (hsame.trans hfind)]
    exact ⟨rfl, h⟩
  | ok found =>
    obtain ⟨place, e⟩ := found
    cases e with
    | file content =>
      rw [removeDirectory_of_file hfind, removeDirectory_of_file (hsame.trans hfind)]
      exact ⟨rfl, h⟩
    | directory =>
      obtain ⟨hfold, _⟩ := find_spec hfind
      have hremoved := removeEmpty_sameOn (h.removeBelow place) hp fun other hother => by
        obtain rfl := Option.some.inj (hfold.symm.trans hother)
        exact ⟨t.hasBelow_removeBelow place, t'.hasBelow_removeBelow place⟩
      simp only [removeDirectory, hsame, hfind, withTree]
      generalize (FileSystem.mk (t.removeBelow place) working).removeEmpty p = made at hremoved
      generalize (FileSystem.mk (t'.removeBelow place) working).removeEmpty p = made' at hremoved
      obtain ⟨result, left⟩ := made
      obtain ⟨result', left'⟩ := made'
      obtain ⟨rfl, hleft⟩ := hremoved
      cases result with
      | ok done => exact ⟨rfl, hleft⟩
      | error fault => cases fault <;> exact ⟨rfl, hleft⟩

end FileSystem

end SameOn

end MasterSchema
