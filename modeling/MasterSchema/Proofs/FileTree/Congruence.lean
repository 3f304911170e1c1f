import MasterSchema.FileTree.Change
import MasterSchema.Proofs.FileTree.Effects
import MasterSchema.Proofs.FileTree.Reaching

/-!
# Trees that cannot be told apart

* A path is found by looking at the locations it passes and at no other (`find_congr_on`); a path
  without `..` looks only at what is above the place it leads to (`find_congr_above`).
* On trees that agree at the locations that are seen, a change whose path passes only such locations
  has the same result, a failure half way included, and leaves trees that agree as well
  (`writeDeep_sameOn`).
-/

namespace MasterSchema

/-! ## 1. What a path looks at -/

namespace FileTree

variable {t t' : FileTree}

/-- A walk looks at the locations that the fold of its first parts leads to, but not at the one
where it ends. -/
theorem walk_congr_on : ∀ {parts : List String} {place : Location},
    (∀ first, first <+: parts.dropLast.filterMap Path.component? →
      t.get? (first.foldl Path.foldStep place) = t'.get? (first.foldl Path.foldStep place)) →
    t.walk place parts = t'.walk place parts
  | [], _, _ => rfl
  | part :: rest, place, h => by
      have hplace : t.get? place = t'.get? place := h [] List.nil_prefix
      have hstep : t.step place part = t'.step place part := by
        rw [step, step, enter, enter, hplace]
      rw [walk, walk, hstep]
      cases hs : t'.step place part with
      | error fault => rfl
      | ok next =>
        cases rest with
        | nil => rfl
        | cons part' rest =>
          refine walk_congr_on fun first hfirst => ?_
          have hnext := (step_eq_ok hs).2
          have hlonger := h ((Path.component? part).toList ++ first) (by
            rw [List.dropLast_cons_cons, filterMap_cons_toList]
            exact (List.prefix_append_right_inj _).2 hfirst)
          rwa [List.foldl_append, ← hnext] at hlonger

end FileTree

namespace FileSystem

/-- **Trees that agree at the locations a path passes give it the same answer.** -/
theorem find_congr_on {t t' : FileTree} {working : Location} {p : Path}
    (h : ∀ place, p.Passes working place → t.get? place = t'.get? place) :
    (FileSystem.mk t working).find p = (FileSystem.mk t' working).find p := by
  have hwalk : t.walk (p.origin working) p.parts = t'.walk (p.origin working) p.parts :=
    FileTree.walk_congr_on fun first hfirst =>
      h _ ⟨first, hfirst.trans ((List.dropLast_prefix p.parts).filterMap _), rfl⟩
  unfold find
  simp only [start_eq, hwalk]
  cases hfault : p.fault? with
  | some fault => rfl
  | none =>
    cases hfinal : t'.walk (p.origin working) p.parts with
    | error fault => rfl
    | ok place =>
      have hplace : p.Passes working place :=
        ⟨p.steps, List.prefix_rfl, FileTree.walk_eq_ok hfinal⟩
      simp only [h place hplace]

section Direct

variable {t t' : FileTree} {working place : Location} {p : Path} (hup : Component.up ∉ p.steps)
  (hfold : p.fold? working = some place)

include hup hfold

/-- A path without `..` looks only at what is above the place it leads to, and at that place. -/
theorem find_congr_above (h : ∀ other, other <+: place → t.get? other = t'.get? other) :
    (FileSystem.mk t working).find p = (FileSystem.mk t' working).find p := by
  obtain ⟨names, hnames⟩ := Path.steps_eq_names hup
  have hplace := Path.eq_of_fold?_names hnames hfold
  exact find_congr_on fun other hpasses => h other (hplace ▸ hpasses.isPrefix hnames)

/-- Trees with the same entry at a place are the same above it. -/
theorem find_congr_of_entry {e : Entry} (ht : t.get? place = some e)
    (ht' : t'.get? place = some e) :
    (FileSystem.mk t working).find p = (FileSystem.mk t' working).find p := by
  refine find_congr_above hup hfold fun other hprefix => ?_
  obtain ⟨names, rfl⟩ := hprefix
  by_cases hnames : names = []
  · rw [hnames, List.append_nil] at ht ht'
    rw [ht, ht']
  · rw [FileTree.get?_above hnames ht, FileTree.get?_above hnames ht']

/-- In trees that differ at the place and below it alone, what cannot be found cannot be found for
the same reason, unless there is nothing. -/
theorem find_error_congr {last : String} (hlast : p.parts.getLast? = some last)
    (hname : Path.component? last = some (.name last))
    (h : ∀ other, ¬ place <+: other → t.get? other = t'.get? other) {fault : FileFault}
    (hfind : (FileSystem.mk t working).find p = .error fault) (hfault : fault ≠ .notFound) :
    (FileSystem.mk t' working).find p = .error fault := by
  obtain ⟨front, hparts⟩ := List.getLast?_eq_some_iff.1 hlast
  obtain ⟨names, hnames⟩ := Path.steps_eq_names hup
  have hsteps : p.steps = front.filterMap Path.component? ++ [.name last] := by
    rw [Path.steps, hparts, List.filterMap_append, List.filterMap_cons_some hname]
    rfl
  have hfront : front.filterMap Path.component? = names.dropLast.map Component.name := by
    rw [List.map_dropLast, ← hnames, hsteps, List.dropLast_concat]
  have hplace := Path.eq_of_fold?_names hnames hfold
  have hne : names ≠ [] := by
    rintro rfl
    exact List.append_ne_nil_of_right_ne_nil _ (List.cons_ne_nil _ []) (hsteps.symm.trans hnames)
  have hwalk : t.walk (p.origin working) p.parts = t'.walk (p.origin working) p.parts := by
    refine FileTree.walk_congr_on fun first hfirst => h _ fun hbelow => ?_
    rw [hparts, List.dropLast_concat, hfront, List.prefix_iff_eq_take, ← List.map_take] at hfirst
    rw [hfirst, Path.foldl_foldStep_names, ← hplace, List.prefix_append_right_inj] at hbelow
    have hlong := hbelow.length_le.trans (List.take_prefix _ _).length_le
    rw [List.length_dropLast] at hlong
    have hpos := List.length_pos_of_ne_nil hne
    omega
  unfold find at hfind ⊢
  simp only [start_eq, ← hwalk] at hfind ⊢
  cases hnone : p.fault? with
  | some e =>
    rw [hnone] at hfind
    exact hfind
  | none =>
    rw [hnone] at hfind
    cases hfinal : t.walk (p.origin working) p.parts with
    | error e =>
      rw [hfinal] at hfind
      exact hfind
    | ok there =>
      simp only [hfinal] at hfind
      split at hfind
      · exact absurd (Except.error.inj hfind).symm hfault
      · cases hfind

end Direct

end FileSystem

/-! ## 2. Changes on trees that agree where they look -/

/-- The trees have the same entries at the locations that are seen. -/
def FileTree.AgreeOn (seen : Location → Prop) (t t' : FileTree) : Prop :=
  ∀ place, seen place → t.get? place = t'.get? place

/-- Two changes have the same result and leave trees that agree as well. -/
structure Changed.SameOn {α : Type} (seen : Location → Prop) (made made' : Changed α) :
    Prop where
  result : made.result = made'.result
  tree : made.tree.AgreeOn seen made'.tree

/-- A path passes only locations that are seen. -/
def Path.Within (working : Location) (seen : Location → Prop) (p : Path) : Prop :=
  ∀ place, p.Passes working place → seen place

namespace FileSystem

variable {seen : Location → Prop} {t t' : FileTree} (h : t.AgreeOn seen t') {working : Location}

/-- Both the directory and the name in it that a path wants are passed by it. -/
theorem passes_of_target {fs : FileSystem} {p : Path} {dir : Location} {name : String}
    {slashed : Bool} (htarget : fs.target p = .ok (.named dir name slashed)) :
    p.Passes fs.working dir ∧ p.Passes fs.working (dir ++ [name]) := by
  obtain ⟨_, _, _, _, hwalk, _⟩ := target_eq_named htarget
  exact ⟨⟨_, p.steps_front, FileTree.walk_eq_ok hwalk⟩,
    Path.passes_of_fold? (target_spec htarget).1⟩

include h

theorem refuse_sameOn {α : Type} (fault : FileFault) :
    ((FileSystem.mk t working).refuse (α := α) fault).SameOn seen
      ((FileSystem.mk t' working).refuse fault) :=
  ⟨rfl, h⟩

section Within

variable {p : Path} (hp : p.Within working seen)

include hp

theorem find_congr_within :
    (FileSystem.mk t working).find p = (FileSystem.mk t' working).find p :=
  find_congr_on fun place hpasses => h place (hp place hpasses)

theorem isDirectory_congr_within :
    (FileSystem.mk t working).isDirectory p = (FileSystem.mk t' working).isDirectory p := by
  rw [isDirectory, isDirectory, find_congr_within h hp]

theorem target_congr_within :
    (FileSystem.mk t working).target p = (FileSystem.mk t' working).target p := by
  have hfront : ∀ first, first <+: p.namedParts.dropLast.filterMap Path.component? →
      t.get? (first.foldl Path.foldStep (p.origin working))
        = t'.get? (first.foldl Path.foldStep (p.origin working)) := fun first hfirst =>
    h _ (hp _ ⟨first, hfirst.trans p.steps_front, rfl⟩)
  have hwalk : t.walk (p.origin working) p.namedParts.dropLast
      = t'.walk (p.origin working) p.namedParts.dropLast :=
    FileTree.walk_congr_on fun first hfirst =>
      hfront first (hfirst.trans ((List.dropLast_prefix _).filterMap _))
  unfold target
  simp only [start_eq, hwalk]
  cases hdir : t'.walk (p.origin working) p.namedParts.dropLast with
  | error fault => rfl
  | ok dir =>
    have hget : t.get? dir = t'.get? dir :=
      FileTree.walk_eq_ok hdir ▸ hfront _ List.prefix_rfl
    simp only [FileTree.enter, hget]

end Within

theorem place_sameOn {dir : Location} {name : String} (hdir : seen dir)
    (hname : seen (dir ++ [name])) (e : Entry) :
    ((FileSystem.mk t working).place dir name e).SameOn seen
      ((FileSystem.mk t' working).place dir name e) := by
  have hroom : t.HasRoom dir name ↔ t'.HasRoom dir name := by
    rw [FileTree.HasRoom, FileTree.HasRoom, h dir hdir, h (dir ++ [name]) hname]
  unfold place
  by_cases hthere : t.HasRoom dir name
  · rw [dif_pos hthere, dif_pos (hroom.1 hthere)]
    refine ⟨rfl, fun other hother => ?_⟩
    rw [FileTree.get?_add, FileTree.get?_add, h other hother]
  · rw [dif_neg hthere, dif_neg fun hthere' => hthere (hroom.2 hthere')]
    split <;> exact refuse_sameOn h _

theorem createDirectory_sameOn {p : Path} (hp : p.Within working seen) :
    ((FileSystem.mk t working).createDirectory p).SameOn seen
      ((FileSystem.mk t' working).createDirectory p) := by
  unfold createDirectory
  rw [target_congr_within h hp]
  split
  · exact refuse_sameOn h _
  · rename_i dir name slashed htarget
    obtain ⟨hdir, hname⟩ := passes_of_target htarget
    exact place_sameOn h (hp dir hdir) (hp _ hname) _
  · exact refuse_sameOn h _

theorem madeOrThere_sameOn {p : Path} (hp : p.Within working seen) {made made' : Changed Unit}
    (hmade : made.SameOn seen made') :
    ((FileSystem.mk t working).madeOrThere p made).SameOn seen
      ((FileSystem.mk t' working).madeOrThere p made') := by
  unfold madeOrThere
  rw [hmade.result, isDirectory_congr_within h hp]
  split
  · exact hmade
  · split
    · exact ⟨rfl, hmade.tree⟩
    · exact hmade

omit h in
theorem createFirst_sameOn : ∀ {ps : List Path} {t t' : FileTree}, t.AgreeOn seen t' →
    (∀ p ∈ ps, p.Within working seen) →
      ((FileSystem.mk t working).createFirst ps).SameOn seen
        ((FileSystem.mk t' working).createFirst ps)
  | [], _, _, h, _ => ⟨rfl, h⟩
  | p :: above, t, t', h, hps => by
      have hp : p.Within working seen := hps p List.mem_cons_self
      have hmade := createDirectory_sameOn h hp
      have ih := createFirst_sameOn h fun q hq => hps q (List.mem_cons_of_mem _ hq)
      unfold createFirst
      split
      · exact ⟨rfl, h⟩
      · rw [hmade.result]
        split
        · generalize (FileSystem.mk t working).createFirst above = first at ih
          generalize (FileSystem.mk t' working).createFirst above = first' at ih
          obtain ⟨result, left⟩ := first
          obtain ⟨result', left'⟩ := first'
          obtain ⟨rfl, hleft⟩ := ih
          cases result with
          | error fault => exact ⟨rfl, hleft⟩
          | ok done => exact madeOrThere_sameOn hleft hp (createDirectory_sameOn hleft hp)
        · exact madeOrThere_sameOn h hp hmade

theorem writeFile_sameOn {p : Path} (hp : p.Within working seen) (content : ByteArray) :
    ((FileSystem.mk t working).writeFile p content).SameOn seen
      ((FileSystem.mk t' working).writeFile p content) := by
  unfold writeFile
  rw [target_congr_within h hp]
  split
  · exact refuse_sameOn h _
  · rename_i dir name htarget
    obtain ⟨hdir, hname⟩ := passes_of_target htarget
    have hget : t.get? (dir ++ [name]) = t'.get? (dir ++ [name]) := h _ (hp _ hname)
    dsimp only
    rw [hget]
    cases hold : t'.get? (dir ++ [name]) with
    | none => exact place_sameOn h (hp dir hdir) (hp _ hname) _
    | some e =>
      cases e with
      | directory => exact refuse_sameOn h _
      | file old =>
        refine ⟨rfl, fun other hother => ?_⟩
        by_cases ho : other = dir ++ [name]
        · rw [ho, FileTree.get?_overwrite_self (hget.trans hold),
            FileTree.get?_overwrite_self hold]
        · rw [FileTree.get?_overwrite_of_ne ho, FileTree.get?_overwrite_of_ne ho,
            h other hother]
  · exact refuse_sameOn h _

/-- **A deep write does the same on trees that agree where its path leads through.** -/
theorem writeDeep_sameOn {p : Path} (hp : p.Within working seen) (content : ByteArray) :
    ((FileSystem.mk t working).writeDeep p content).SameOn seen
      ((FileSystem.mk t' working).writeDeep p content) := by
  unfold writeDeep
  split
  · exact writeFile_sameOn h hp content
  · rename_i dir hparent
    obtain ⟨hsteps, habsolute⟩ := Path.parent_spec hparent
    have habove : ∀ q ∈ dir.ancestors, q.Within working seen := fun q hq place hpasses =>
      hp place <| Path.passes_of_steps (hsteps ▸ List.dropLast_prefix p.steps) habsolute <|
        Path.passes_of_steps (Path.ancestors_spec hq).1 (Path.ancestors_spec hq).2 hpasses
    have hmade := createFirst_sameOn h habove
    unfold createDirectories
    generalize (FileSystem.mk t working).createFirst dir.ancestors = made at hmade
    generalize (FileSystem.mk t' working).createFirst dir.ancestors = made' at hmade
    obtain ⟨result, left⟩ := made
    obtain ⟨result', left'⟩ := made'
    obtain ⟨rfl, hleft⟩ := hmade
    cases result with
    | error fault => exact ⟨rfl, hleft⟩
    | ok done => exact writeFile_sameOn hleft hp content

end FileSystem

end MasterSchema
