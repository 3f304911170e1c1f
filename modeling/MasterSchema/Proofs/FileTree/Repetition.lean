import MasterSchema.Proofs.FileTree.Congruence

/-!
# Writing once more

A deep write that has succeeded on a tree succeeds on any tree that has part of what was made of
that tree in the end.

* What stands in a tree stays there, as the file or the directory that it is, whatever is written
  into the tree (`Kept`, `writeDeep_kept`).
* A path leads to a directory exactly if it passes directories only (`find_directory_iff`), so it
  leads there in every tree that keeps them. In a tree with less something may be missing on the
  way; a directory that is refused for another reason is there (`find_of_refused`).
* `Between` says of a tree that it has at every location what stands there in one tree or in a later
  one. What could be made and written in the first of them can be in the tree between, and leaves it
  between (`createFirst_again`, `writeFile_again`, `writeDeep_again`).
-/

namespace MasterSchema

/-! ## 1. What is kept -/

/-- What stands in the first tree stands in the second; a file may have another content there. -/
structure Kept (t u : FileTree) : Prop where
  directory : ∀ place, t.get? place = some .directory → u.get? place = some .directory
  file : ∀ place content, t.get? place = some (.file content) →
    ∃ content', u.get? place = some (.file content')

namespace Kept

variable {t u u' : FileTree}

theorem refl (t : FileTree) : Kept t t :=
  ⟨fun _ h => h, fun _ content h => ⟨content, h⟩⟩

theorem trans (h : Kept t u) (h' : Kept u u') : Kept t u' where
  directory place hd := h'.directory place (h.directory place hd)
  file place content hf := by
    obtain ⟨content', hf'⟩ := h.file place content hf
    exact h'.file place content' hf'

/-- Where nothing stands in the second tree, nothing stands in the first. -/
theorem none (h : Kept t u) {place : Location} (hn : u.get? place = .none) :
    t.get? place = .none := by
  cases ht : t.get? place with
  | none => rfl
  | some e =>
    cases e with
    | directory => cases hn.symm.trans (h.directory place ht)
    | file content =>
      obtain ⟨_, hu⟩ := h.file place content ht
      cases hn.symm.trans hu

/-- Where a directory stands in the second tree, the first has it or nothing. -/
theorem none_or_directory (h : Kept t u) {place : Location}
    (hd : u.get? place = some .directory) :
    t.get? place = .none ∨ t.get? place = some .directory := by
  cases ht : t.get? place with
  | none => exact Or.inl rfl
  | some e =>
    cases e with
    | directory => exact Or.inr rfl
    | file content =>
      obtain ⟨_, hu⟩ := h.file place content ht
      cases hd.symm.trans hu

end Kept

theorem GrownBy.kept {allowed : Location → Prop} {t t' : FileTree} (h : GrownBy allowed t t') :
    Kept t t' :=
  ⟨fun _ hd => h.get?_of_some hd, fun _ content hf => ⟨content, h.get?_of_some hf⟩⟩

namespace FileSystem

theorem writeFile_kept (fs : FileSystem) (p : Path) (content : ByteArray) :
    Kept fs.tree (fs.writeFile p content).tree := by
  unfold writeFile
  split
  · exact Kept.refl _
  · rename_i dir name _
    split
    · unfold place
      split
      · rename_i hroom
        have hsame : ∀ {other : Location} {e : Entry}, fs.tree.get? other = some e →
            (fs.tree.add dir name (.file content) hroom).get? other = some e := by
          intro other e he
          have ho : other ≠ dir ++ [name] := by
            rintro rfl
            cases hroom.2.2.symm.trans he
          rw [FileTree.get?_add, if_neg ho]
          exact he
        exact ⟨fun _ hd => hsame hd, fun _ old hf => ⟨old, hsame hf⟩⟩
      · split <;> exact Kept.refl _
    · exact Kept.refl _
    · rename_i old hold
      constructor
      · intro other hd
        have ho : other ≠ dir ++ [name] := by
          rintro rfl
          cases hold.symm.trans hd
        rw [FileTree.get?_overwrite_of_ne ho]
        exact hd
      · intro other content' hf
        by_cases ho : other = dir ++ [name]
        · rw [ho]
          exact ⟨content, FileTree.get?_overwrite_self hold⟩
        · rw [FileTree.get?_overwrite_of_ne ho]
          exact ⟨content', hf⟩
  · exact Kept.refl _

/-- **What stands in a tree stays, whatever is written into the tree.** -/
theorem writeDeep_kept (fs : FileSystem) (p : Path) (content : ByteArray) :
    Kept fs.tree (fs.writeDeep p content).tree := by
  unfold writeDeep
  split
  · exact fs.writeFile_kept p content
  · rename_i dir _
    have hmade := (fs.createDirectories_grownBy dir).kept
    split
    · rename_i hc
      rw [hc] at hmade
      exact hmade
    · rename_i left hc
      rw [hc] at hmade
      exact hmade.trans ((fs.withTree left).writeFile_kept p content)

end FileSystem

/-! ## 2. Ways of directories -/

namespace FileTree

variable {t : FileTree} {place : Location}

/-- Above a directory stands a directory, and the root is above itself. -/
theorem get?_up (h : t.get? place = some .directory) : t.get? place.dropLast = some .directory := by
  rcases List.eq_nil_or_concat' place with rfl | ⟨dir, name, rfl⟩
  · rfl
  · rw [List.dropLast_concat]
    exact (get?_dropLast h).2

/-- A walk over directories succeeds. -/
theorem walk_of_directories : ∀ {parts : List String} {place : Location},
    (∀ first, first <+: parts.filterMap Path.component? →
      t.get? (first.foldl Path.foldStep place) = some .directory) →
    t.walk place parts = .ok ((parts.filterMap Path.component?).foldl Path.foldStep place)
  | [], _, _ => rfl
  | part :: rest, place, h => by
      have hplace : t.get? place = some .directory := h [] List.nil_prefix
      have hall : ∀ first, first <+: rest.filterMap Path.component? →
          t.get? ((((Path.component? part).toList ++ first)).foldl Path.foldStep place)
            = some .directory := fun first hfirst => h _ (by
        rw [filterMap_cons_toList]
        exact (List.prefix_append_right_inj _).2 hfirst)
      have hstep : t.step place part
          = .ok ((Path.component? part).toList.foldl Path.foldStep place) := by
        rcases Path.component?_cases part with ⟨hv, hc⟩ | ⟨rfl, hc⟩ | ⟨hv, hu, hc⟩
        · rw [step_vacuous hplace hv, hc]
          rfl
        · rw [hc, step, enter_directory hplace]
          rfl
        · have hnext := hall [] List.nil_prefix
          rw [hc] at hnext ⊢
          exact step_name hplace (fileName_of_isFileName (get?_dropLast hnext).1)
      rw [walk, hstep, filterMap_cons_toList, List.foldl_append]
      refine walk_of_directories fun first hfirst => ?_
      rw [← List.foldl_append]
      exact hall first hfirst

/-- A walk that ends at a directory has passed directories only. -/
theorem directories_of_walk : ∀ {parts : List String} {place final : Location},
    t.walk place parts = .ok final → t.get? final = some .directory →
      ∀ first, first <+: parts.filterMap Path.component? →
        t.get? (first.foldl Path.foldStep place) = some .directory
  | [], place, final, h, hfinal, first, hfirst => by
      rw [List.prefix_nil.1 hfirst, show place = final from Except.ok.inj h]
      exact hfinal
  | part :: rest, place, final, h, hfinal, first, hfirst => by
      unfold walk at h
      split at h
      · cases h
      · rename_i next hs
        obtain ⟨hplace, hnext⟩ := step_eq_ok hs
        rw [filterMap_cons_toList] at hfirst
        cases first with
        | nil => exact hplace
        | cons c first =>
          cases hc : Path.component? part with
          | none =>
            rw [hc] at hfirst hnext
            obtain rfl : next = place := hnext
            exact directories_of_walk h hfinal _ hfirst
          | some own =>
            rw [hc] at hfirst hnext
            obtain ⟨rfl, hrest⟩ := List.cons_prefix_cons.1 hfirst
            obtain rfl : next = Path.foldStep place c := hnext
            exact directories_of_walk h hfinal _ hrest

end FileTree

namespace FileSystem

/-- **A path leads to a directory exactly if it passes directories only.** -/
theorem find_directory_iff {fs : FileSystem} {p : Path} {place : Location} :
    fs.find p = .ok (place, .directory) ↔ p.fault? = none ∧ p.fold? fs.working = some place
      ∧ ∀ other, p.Passes fs.working other → fs.tree.get? other = some .directory := by
  constructor
  · intro h
    have hplace := find_spec h
    unfold find at h
    split at h
    · cases h
    · rename_i hfault
      split at h
      · cases h
      · rename_i final hwalk
        refine ⟨hfault, hplace.1, fun other hpasses => ?_⟩
        obtain ⟨first, hfirst, rfl⟩ := hpasses
        refine FileTree.directories_of_walk hwalk ?_ first hfirst
        split at h
        · cases h
        · rename_i hget
          obtain ⟨rfl, rfl⟩ := Prod.mk.inj (Except.ok.inj h)
          exact hget
  · intro h
    obtain ⟨hfault, hfold, hpasses⟩ := h
    have hwalk : fs.tree.walk (fs.start p) p.parts = .ok place := by
      rw [Path.fold?_eq (Path.text_ne_of_fault? hfault)] at hfold
      rw [← Option.some.inj hfold, start_eq]
      exact FileTree.walk_of_directories fun first hfirst => hpasses _ ⟨first, hfirst, rfl⟩
    simp only [find, hfault, hwalk, hpasses place (Path.passes_of_fold? hfold)]

theorem isDirectory_iff {fs : FileSystem} {p : Path} :
    fs.isDirectory p = true ↔ ∃ place, fs.find p = .ok (place, .directory) := by
  unfold isDirectory
  split
  · rename_i place hfind
    exact iff_of_true rfl ⟨place, hfind⟩
  · rename_i hnot
    exact iff_of_false Bool.false_ne_true fun hsome => hnot _ hsome.choose_spec

theorem find_directory_kept {t u : FileTree} (h : Kept t u) {working : Location} {p : Path}
    {place : Location} (hfind : (FileSystem.mk t working).find p = .ok (place, .directory)) :
    (FileSystem.mk u working).find p = .ok (place, .directory) := by
  obtain ⟨hfault, hfold, hpasses⟩ := find_directory_iff.1 hfind
  exact find_directory_iff.2 ⟨hfault, hfold, fun other ho => h.directory other (hpasses other ho)⟩

end FileSystem

/-! ## 3. Walks in a tree with less -/

namespace FileTree

variable {t u : FileTree} (h : Kept t u)

include h

/-- A step in a tree with less does the same or misses something. -/
theorem step_kept (place : Location) (part : String) :
    t.step place part = u.step place part ∨ t.step place part = .error .notFound := by
  cases ht : t.get? place with
  | none => exact Or.inr (by rw [step, enter, ht])
  | some e =>
    refine Or.inl ?_
    cases e with
    | directory => rw [step, step, enter, enter, ht, h.directory place ht]
    | file content =>
      obtain ⟨content', hu⟩ := h.file place content ht
      rw [step, step, enter, enter, ht, hu]

/-- A walk in a tree with less ends in the same way or misses something. -/
theorem walk_kept : ∀ (parts : List String) (place : Location),
    t.walk place parts = u.walk place parts ∨ t.walk place parts = .error .notFound
  | [], _ => Or.inl rfl
  | part :: rest, place => by
      rw [walk, walk]
      rcases step_kept h place part with hs | hs
      · rw [hs]
        cases u.step place part with
        | error fault => exact Or.inl rfl
        | ok next => exact walk_kept rest next
      · rw [hs]
        exact Or.inr rfl

end FileTree

namespace FileSystem

/-- What is missed in a tree is missed in a tree with less. -/
theorem target_notFound_kept {t u : FileTree} (h : Kept t u) {working : Location} {p : Path}
    (hu : (FileSystem.mk u working).target p = .error .notFound) :
    (FileSystem.mk t working).target p = .error .notFound := by
  unfold target at hu ⊢
  split at hu
  · exact hu
  · split at hu
    · cases hu
    · dsimp only [start] at hu ⊢
      rcases FileTree.walk_kept h (p.namedParts.dropLast)
        (if p.isAbsolute then [] else working) with hw | hw
      · rw [hw]
        split at hu
        · exact hu
        · rename_i dir _
          split at hu
          · rename_i fault henter
            obtain rfl := Except.error.inj hu
            simp only [FileTree.enter, h.none (FileTree.enter_eq_notFound henter)]
          · split at hu
            · cases hu
            · split at hu <;> cases hu
      · rw [hw]

theorem target_of_walk {fs : FileSystem} {p : Path} {dir : Location} {name : String}
    (hfault : p.fault? = none) (hlast : p.namedParts.getLast? = some name) (hdot : name ≠ ".")
    (hup : name ≠ "..") (hwalk : fs.tree.walk (fs.start p) p.namedParts.dropLast = .ok dir)
    (hdir : fs.tree.get? dir = some .directory) :
    fs.target p = .ok (.named dir name p.endsInSlash) := by
  simp only [target, hfault, hlast, hwalk, FileTree.enter_directory hdir,
    if_neg fun e => hdot (beq_iff_eq.1 e), if_neg fun e => hup (beq_iff_eq.1 e)]

/-- A name in a directory is reached in a tree with more. -/
theorem target_named_kept {t u : FileTree} (h : Kept t u) {working : Location} {p : Path}
    {dir : Location} {name : String} {slashed : Bool}
    (ht : (FileSystem.mk t working).target p = .ok (.named dir name slashed)) :
    (FileSystem.mk u working).target p = .ok (.named dir name slashed) := by
  obtain ⟨hfault, hlast, hdot, hup, hwalk, hdir⟩ := target_eq_named ht
  have hwalk' : u.walk (p.origin working) p.namedParts.dropLast = .ok dir := by
    rw [FileTree.walk_eq_ok hwalk]
    exact FileTree.walk_of_directories fun first hfirst =>
      h.directory _ (FileTree.directories_of_walk hwalk hdir first hfirst)
  rw [target_of_walk hfault hlast hdot hup hwalk' (h.directory dir hdir),
    ← target_of_walk hfault hlast hdot hup hwalk hdir]
  exact ht

theorem place_ne_notFound (fs : FileSystem) (dir : Location) (name : String) (e : Entry) :
    (fs.place dir name e).result ≠ .error .notFound := by
  intro h
  unfold place at h
  split at h
  · cases h
  · split at h <;> cases h

theorem createDirectory_notFound_iff {fs : FileSystem} {p : Path} :
    (fs.createDirectory p).result = .error .notFound ↔ fs.target p = .error .notFound := by
  unfold createDirectory
  cases fs.target p with
  | error fault =>
    constructor
    · intro h
      exact congrArg _ (Except.error.inj h)
    · intro h
      exact congrArg _ (Except.error.inj h)
  | ok found =>
    refine iff_of_false (fun h => ?_) fun h => by cases h
    cases found with
    | named dir name slashed => exact place_ne_notFound fs dir name .directory h
    | _ => cases h

end FileSystem

/-! ## 4. One directory once more -/

namespace Path

theorem steps_eq_front {p : Path} {last : String} (hlast : p.namedParts.getLast? = some last) :
    p.steps = p.namedParts.dropLast.filterMap component? ++ (component? last).toList := by
  obtain ⟨front, hfront⟩ := List.getLast?_eq_some_iff.1 hlast
  rw [← steps_namedParts, hfront, List.dropLast_concat, List.filterMap_append,
    FileTree.filterMap_cons_toList]
  exact congrArg _ (List.append_nil _)

/-- A path passes what its named parts but the last pass, and then the place it leads to. -/
theorem Passes.named {p : Path} {last : String} (hlast : p.namedParts.getLast? = some last)
    {working other : Location} (h : p.Passes working other) :
    (∃ first, first <+: p.namedParts.dropLast.filterMap component?
        ∧ other = first.foldl foldStep (p.origin working))
      ∨ other = (component? last).toList.foldl foldStep
        ((p.namedParts.dropLast.filterMap component?).foldl foldStep (p.origin working)) := by
  obtain ⟨first, hfirst, rfl⟩ := h
  rw [steps_eq_front hlast] at hfirst
  cases hc : component? last with
  | none =>
    rw [hc, Option.toList_none, List.append_nil] at hfirst
    exact Or.inl ⟨first, hfirst, rfl⟩
  | some c =>
    rw [hc] at hfirst
    rcases List.prefix_concat_iff.1 hfirst with rfl | hfirst
    · exact Or.inr (List.foldl_append)
    · exact Or.inl ⟨first, hfirst, rfl⟩

/-- A path without named parts is the root and passes nothing else. -/
theorem Passes.root {p : Path} (ht : p.text ≠ "") (hnone : p.namedParts.getLast? = none)
    {working other : Location} (h : p.Passes working other) : other = [] := by
  have hnil : p.namedParts = [] := List.getLast?_eq_none_iff.1 hnone
  have hempty : ∀ part ∈ p.parts, part = "" := by
    have hall := List.rdropWhile_eq_nil_iff.1 (show p.parts.rdropWhile (· == "") = [] from hnil)
    exact fun part hpart => eq_of_beq (hall part hpart)
  have hsteps : p.steps = [] := by rw [← steps_namedParts, hnil]; rfl
  obtain ⟨first, hfirst, rfl⟩ := h
  rw [hsteps, List.prefix_nil] at hfirst
  rw [hfirst, origin, if_pos (isAbsolute_of_parts_empty ht hempty)]
  rfl

end Path

namespace FileSystem

/-- A directory that has been made is found. -/
theorem createDirectory_there {fs : FileSystem} {p : Path}
    (h : (fs.createDirectory p).result = .ok ()) :
    ∃ place, (fs.withTree (fs.createDirectory p).tree).find p = .ok (place, .directory) := by
  unfold createDirectory at h ⊢
  split at h
  · cases h
  · rename_i dir name slashed htarget
    obtain ⟨hfault, hlast, hdot, hup, hwalk, hdir⟩ := target_eq_named htarget
    have hname := Path.component?_of_name (Path.namedParts_last_ne hlast) hdot hup
    refine ⟨dir ++ [name], find_directory_iff.2 ⟨hfault, (target_spec htarget).1, ?_⟩⟩
    intro other hpasses
    rcases hpasses.named hlast with ⟨first, hfirst, rfl⟩ | hother
    · have hkept : Kept fs.tree (fs.place dir name .directory).tree :=
        (fs.place_grownBy dir name).kept
      exact hkept.directory _ (FileTree.directories_of_walk hwalk hdir first hfirst)
    · have hplace : other = dir ++ [name] := by
        rw [hother, hname, FileTree.walk_eq_ok hwalk]
        rfl
      unfold place at h ⊢
      split at h
      · rename_i hroom
        rw [dif_pos hroom, hplace]
        exact (FileTree.get?_add hroom _).trans (if_pos rfl)
      · split at h <;> cases h
  · cases h

/-- Where a directory may count as made, it is found. -/
theorem madeOrThere_there {fs : FileSystem} {p : Path}
    (h : (fs.madeOrThere p (fs.createDirectory p)).result = .ok ()) :
    ∃ place, (fs.withTree (fs.createDirectory p).tree).find p = .ok (place, .directory) := by
  unfold madeOrThere at h
  split at h
  · rename_i hmade
    exact createDirectory_there hmade
  · split at h
    · rename_i hthere
      obtain ⟨place, hfind⟩ := isDirectory_iff.1 hthere
      exact ⟨place, find_directory_kept (fs.createDirectory_grownBy p).kept hfind⟩
    · rename_i fault hmade _
      cases hmade.symm.trans h

theorem createDirectory_of_room {fs : FileSystem} {p : Path} {dir : Location} {name : String}
    {slashed : Bool} (htarget : fs.target p = .ok (.named dir name slashed))
    (hroom : fs.tree.HasRoom dir name) : (fs.createDirectory p).result = .ok () := by
  simp only [createDirectory, htarget, place, dif_pos hroom]

section Refused

variable {t u : FileTree} (h : Kept t u) {working : Location} {p : Path} {place : Location}
  (hfind : (FileSystem.mk u working).find p = .ok (place, .directory)) {fault : FileFault}
  (hmade : ((FileSystem.mk t working).createDirectory p).result = .error fault)
  (hfault : fault ≠ .notFound)

include h hfind hmade hfault

/-- The named parts but the last are walked, for nothing is missing on the way. -/
theorem walk_of_refused {last : String} (hlast : p.namedParts.getLast? = some last) {dir : Location}
    (hdir : dir = (p.namedParts.dropLast.filterMap Path.component?).foldl Path.foldStep
      (p.origin working)) :
    t.walk (p.origin working) p.namedParts.dropLast = .ok dir
      ∧ t.get? dir = some .directory := by
  obtain ⟨hnone, _, hpasses⟩ := find_directory_iff.1 hfind
  have hfront : ∀ first, first <+: p.namedParts.dropLast.filterMap Path.component? →
      u.get? (first.foldl Path.foldStep (p.origin working)) = some .directory :=
    fun first hfirst => hpasses _ ⟨first, hfirst.trans p.steps_front, rfl⟩
  have hmissing : (FileSystem.mk t working).target p ≠ .error .notFound := fun hm =>
    hfault (Except.error.inj (hmade.symm.trans (createDirectory_notFound_iff.2 hm)))
  have hwalk : t.walk (p.origin working) p.namedParts.dropLast = .ok dir := by
    rcases FileTree.walk_kept h p.namedParts.dropLast (p.origin working) with hw | hw
    · rw [hw, hdir]
      exact FileTree.walk_of_directories hfront
    · exact absurd (by simp only [target, hnone, hlast, start_eq, hw]) hmissing
  refine ⟨hwalk, (h.none_or_directory (hdir ▸ hfront _ List.prefix_rfl)).resolve_left ?_⟩
  intro hget
  exact hmissing (by simp only [target, hnone, hlast, start_eq, hwalk, FileTree.enter, hget])

/-- **A directory that cannot be made in a tree with less, though nothing is missing for it, is
there.** -/
theorem find_of_refused : (FileSystem.mk t working).find p = .ok (place, .directory) := by
  obtain ⟨hnone, hfold, hpasses⟩ := find_directory_iff.1 hfind
  refine find_directory_iff.2 ⟨hnone, hfold, fun other hother => ?_⟩
  cases hlast : p.namedParts.getLast? with
  | none =>
    rw [hother.root (Path.text_ne_of_fault? hnone) hlast]
    rfl
  | some last =>
    obtain ⟨hwalk, hdir⟩ := walk_of_refused h hfind hmade hfault hlast rfl
    rcases hother.named hlast with ⟨first, hfirst, rfl⟩ | hlast'
    · exact FileTree.directories_of_walk hwalk hdir first hfirst
    · generalize (p.namedParts.dropLast.filterMap Path.component?).foldl Path.foldStep
        (p.origin working) = dir at hwalk hdir hlast'
      rcases Path.component?_cases last with ⟨_, hc⟩ | ⟨_, hc⟩ | ⟨hv, hu, hc⟩
      · rw [hlast', hc]
        exact hdir
      · rw [hlast', hc]
        exact FileTree.get?_up hdir
      · have hplace : other = dir ++ [last] := by rw [hlast', hc]; rfl
        have hlarge := hpasses other hother
        refine (h.none_or_directory hlarge).resolve_left fun hget => ?_
        rw [hplace] at hget hlarge
        have hroom : t.HasRoom dir last := ⟨(FileTree.get?_dropLast hlarge).1, hdir, hget⟩
        have hdot : last ≠ "." := by
          rintro rfl
          cases hv
        have htarget : (FileSystem.mk t working).target p = .ok (.named dir last p.endsInSlash) :=
          target_of_walk hnone hlast hdot hu hwalk hdir
        cases hmade.symm.trans (createDirectory_of_room htarget hroom)

end Refused

end FileSystem

/-! ## 5. Trees in between -/

/-- A tree has at every location what stands there in the first tree or in the last one. -/
def Between (t v u : FileTree) : Prop :=
  ∀ place, v.get? place = t.get? place ∨ v.get? place = u.get? place

namespace Between

variable {t v u : FileTree} (h : Between t v u) (hkept : Kept t u)

include h hkept

theorem kept_left : Kept t v where
  directory place hd := by
    rcases h place with he | he
    · rw [he]; exact hd
    · rw [he]; exact hkept.directory place hd
  file place content hf := by
    rcases h place with he | he
    · rw [he]; exact ⟨content, hf⟩
    · rw [he]; exact hkept.file place content hf

theorem kept_right : Kept v u where
  directory place hd := by
    rcases h place with he | he
    · exact hkept.directory place (he ▸ hd)
    · rw [← he]; exact hd
  file place content hf := by
    rcases h place with he | he
    · exact hkept.file place content (he ▸ hf)
    · rw [← he]; exact ⟨content, hf⟩

end Between

namespace FileSystem

/-- Making directories that succeeds has made the first one or, where that was missed, those behind
it and then the first one. -/
theorem createFirst_eq_ok {fs : FileSystem} {p : Path} {above : List Path} {t : FileTree}
    (ht : p.text ≠ "") (h : fs.createFirst (p :: above) = ⟨.ok (), t⟩) :
    ((fs.createDirectory p).result ≠ .error .notFound
        ∧ fs.madeOrThere p (fs.createDirectory p) = ⟨.ok (), t⟩)
      ∨ ((fs.createDirectory p).result = .error .notFound ∧ ∃ t₁,
        fs.createFirst above = ⟨.ok (), t₁⟩
          ∧ (fs.withTree t₁).madeOrThere p ((fs.withTree t₁).createDirectory p) = ⟨.ok (), t⟩) := by
  rw [createFirst, if_neg (by simpa using ht)] at h
  split at h
  · rename_i hmissed
    split at h
    · cases h
    · rename_i t₁ habove
      exact Or.inr ⟨hmissed, t₁, habove, h⟩
  · rename_i hmissed
    exact Or.inl ⟨hmissed, h⟩

theorem madeOrThere_kept (fs : FileSystem) {p : Path} {t : FileTree}
    (h : fs.madeOrThere p (fs.createDirectory p) = ⟨.ok (), t⟩) : Kept fs.tree t := by
  have hmade := (fs.createDirectory_grownBy p).kept
  rwa [← madeOrThere_tree, h] at hmade

theorem createFirst_kept {fs : FileSystem} {ps : List Path} {t : FileTree}
    (h : fs.createFirst ps = ⟨.ok (), t⟩) : Kept fs.tree t := by
  have hgrown : GrownBy (fun _ => True) fs.tree (fs.createFirst ps).tree :=
    createFirst_grownBy ps fs fun _ _ _ _ => trivial
  rw [h] at hgrown
  exact hgrown.kept

/-- **Directories that have been made are found.** -/
theorem createFirst_there {fs : FileSystem} {p : Path} {above : List Path} {t : FileTree}
    (ht : p.text ≠ "") (h : fs.createFirst (p :: above) = ⟨.ok (), t⟩) :
    ∃ place, (fs.withTree t).find p = .ok (place, .directory) := by
  have hmade : ∀ fs : FileSystem, fs.madeOrThere p (fs.createDirectory p) = ⟨.ok (), t⟩ →
      ∃ place, (fs.withTree t).find p = .ok (place, .directory) := by
    intro fs hok
    obtain ⟨place, hfind⟩ := madeOrThere_there (congrArg Changed.result hok)
    rw [← madeOrThere_tree, hok] at hfind
    exact ⟨place, hfind⟩
  rcases createFirst_eq_ok ht h with ⟨_, hok⟩ | ⟨_, t₁, _, hok⟩
  · exact hmade fs hok
  · exact hmade (fs.withTree t₁) hok

section Again

variable {u : FileTree} {working : Location}

/-- The paths behind a path in a list pass nothing else than that path does. -/
theorem passes_of_pairwise {p : Path} {above : List Path}
    (hps : (p :: above).Pairwise fun q a => a.steps <+: q.steps ∧ a.isAbsolute = q.isAbsolute) :
    ∀ q ∈ p :: above, ∀ place, q.Passes working place → p.Passes working place := by
  intro q hq place hpasses
  rcases List.mem_cons.1 hq with rfl | hq
  · exact hpasses
  · obtain ⟨hs, ha⟩ := (List.pairwise_cons.1 hps).1 q hq
    exact Path.passes_of_steps hs ha hpasses

/-- Where directories have been made in two trees, nothing differs on the way to them, and elsewhere
nothing has changed. -/
theorem createFirst_between {p : Path} {above : List Path} {t v g w : FileTree}
    (hps : (p :: above).Pairwise fun q a => a.steps <+: q.steps ∧ a.isAbsolute = q.isAbsolute)
    (ht : p.text ≠ "") (hbetween : Between t v u)
    (hg : (FileSystem.mk t working).createFirst (p :: above) = ⟨.ok (), g⟩)
    (hw : (FileSystem.mk v working).createFirst (p :: above) = ⟨.ok (), w⟩) : Between g w u := by
  have hgrown : GrownBy (p.Passes working) t g := by
    have hmade := createFirst_grownBy (p :: above) (.mk t working) (passes_of_pairwise hps)
    rwa [hg] at hmade
  have hgrown' : GrownBy (p.Passes working) v w := by
    have hmade := createFirst_grownBy (p :: above) (.mk v working) (passes_of_pairwise hps)
    rwa [hw] at hmade
  obtain ⟨_, hfind⟩ := createFirst_there ht hg
  obtain ⟨_, hfind'⟩ := createFirst_there ht hw
  intro place
  by_cases hpasses : p.Passes working place
  · have hdir : g.get? place = some .directory := (find_directory_iff.1 hfind).2.2 place hpasses
    have hdir' : w.get? place = some .directory := (find_directory_iff.1 hfind').2.2 place hpasses
    exact Or.inl (hdir'.trans hdir.symm)
  · rw [(hgrown place).resolve_right fun hnew => hpasses hnew.1,
      (hgrown' place).resolve_right fun hnew => hpasses hnew.1]
    exact hbetween place

/-- A directory may count as made if it was there whenever it could not be made. -/
theorem madeOrThere_eq_ok {fs : FileSystem} {p : Path}
    (h : ∀ fault, (fs.createDirectory p).result = .error fault → fs.isDirectory p = true) :
    (fs.madeOrThere p (fs.createDirectory p)).result = .ok () := by
  unfold madeOrThere
  cases hmade : (fs.createDirectory p).result with
  | ok done => exact hmade
  | error fault =>
    dsimp only
    rw [if_pos (h fault hmade)]

/-- A directory that may count as made in a tree may do so in a tree with more. -/
theorem madeOrThere_again {t v : FileTree} (hleft : Kept t v) (hright : Kept v u) {p : Path}
    {place : Location} (hfind : (FileSystem.mk u working).find p = .ok (place, .directory))
    (h : ((FileSystem.mk t working).madeOrThere p
      ((FileSystem.mk t working).createDirectory p)).result = .ok ()) :
    ((FileSystem.mk v working).madeOrThere p
      ((FileSystem.mk v working).createDirectory p)).result = .ok () := by
  refine madeOrThere_eq_ok fun fault hmade => ?_
  by_cases hfault : fault = .notFound
  · -- what is missed here was missed in the first tree, so the directory was there
    rw [hfault, createDirectory_notFound_iff] at hmade
    have hmissed := createDirectory_notFound_iff.2 (target_notFound_kept hleft hmade)
    rw [madeOrThere, hmissed] at h
    dsimp only at h
    split at h
    · rename_i hdir
      obtain ⟨there, hthere⟩ := isDirectory_iff.1 hdir
      exact isDirectory_iff.2 ⟨there, find_directory_kept hleft hthere⟩
    · cases hmissed.symm.trans h
  · exact isDirectory_iff.2 ⟨place, find_of_refused hright hfind hmade hfault⟩

/-- **Directories that could be made in a tree can be made in one between it and a later one.** -/
theorem createFirst_again : ∀ {ps : List Path} {t v g : FileTree},
    (ps.Pairwise fun q a => a.steps <+: q.steps ∧ a.isAbsolute = q.isAbsolute) →
      Between t v u → Kept g u → (FileSystem.mk t working).createFirst ps = ⟨.ok (), g⟩ →
        ∃ w, (FileSystem.mk v working).createFirst ps = ⟨.ok (), w⟩ ∧ Between g w u
  | [], t, v, g, _, hbetween, _, h => by
      obtain rfl : t = g := congrArg Changed.tree h
      exact ⟨v, rfl, hbetween⟩
  | p :: above, t, v, g, hps, hbetween, hkept, h => by
      by_cases hempty : p.text = ""
      · have hdone : ∀ t, (FileSystem.mk t working).createFirst (p :: above) = ⟨.ok (), t⟩ :=
          fun t => by rw [createFirst, if_pos (beq_iff_eq.2 hempty)]
        obtain rfl : t = g := congrArg Changed.tree ((hdone t).symm.trans h)
        exact ⟨v, hdone v, hbetween⟩
      have hmore := (createFirst_kept h).trans hkept
      have hleft := hbetween.kept_left hmore
      have hright := hbetween.kept_right hmore
      obtain ⟨place, hfind⟩ := createFirst_there hempty h
      have hfind' := find_directory_kept hkept hfind
      have hok : ((FileSystem.mk v working).createFirst (p :: above)).result = .ok () := by
        rw [createFirst, if_neg (by simpa using hempty)]
        split
        · rename_i hmissed
          have hmissed' := createDirectory_notFound_iff.2
            (target_notFound_kept hleft (createDirectory_notFound_iff.1 hmissed))
          rcases createFirst_eq_ok hempty h with ⟨hnot, _⟩ | ⟨_, t₁, habove, hmade⟩
          · exact absurd hmissed' hnot
          · have hlast : Kept t₁ u := (madeOrThere_kept (.mk t₁ working) hmade).trans hkept
            obtain ⟨v₁, habove', hbetween'⟩ := createFirst_again (List.pairwise_cons.1 hps).2
              hbetween hlast habove
            rw [habove']
            exact madeOrThere_again (hbetween'.kept_left hlast) (hbetween'.kept_right hlast)
              hfind' (congrArg Changed.result hmade)
        · rename_i hmissed
          refine madeOrThere_eq_ok fun fault hmade => isDirectory_iff.2 ⟨place, ?_⟩
          exact find_of_refused hright hfind' hmade fun e => hmissed (e ▸ hmade)
      generalize hw : (FileSystem.mk v working).createFirst (p :: above) = made at hok
      obtain ⟨result, w⟩ := made
      obtain rfl : result = .ok () := hok
      exact ⟨w, rfl, createFirst_between hps hempty hbetween h hw⟩

/-- A file is written where no directory stands. -/
theorem writeFile_of_target {fs : FileSystem} {p : Path} {content : ByteArray} {dir : Location}
    {name : String} (htarget : fs.target p = .ok (.named dir name false))
    (hname : isFileName name = true) (hfree : fs.tree.get? (dir ++ [name]) ≠ some .directory) :
    (fs.writeFile p content).result = .ok () := by
  unfold writeFile
  rw [htarget]
  dsimp only
  split
  · rename_i hget
    rw [place, dif_pos ⟨hname, (target_spec htarget).2, hget⟩]
  · rename_i hget
    exact absurd hget hfree
  · rfl

/-- A file that is written has been a name in a directory. -/
theorem target_of_writeFile {fs : FileSystem} {p : Path} {content : ByteArray}
    (h : (fs.writeFile p content).result = .ok ()) :
    ∃ dir name, fs.target p = .ok (.named dir name false) := by
  unfold writeFile at h
  split at h
  · cases h
  · rename_i dir name htarget
    exact ⟨dir, name, htarget⟩
  · cases h

/-- A file that could be written into a tree can be written into one between it and a later one. -/
theorem writeFile_again {t v g : FileTree} (hbetween : Between t v u) (hkept : Kept g u) {p : Path}
    {content : ByteArray} (h : (FileSystem.mk t working).writeFile p content = ⟨.ok (), g⟩) :
    ∃ w, (FileSystem.mk v working).writeFile p content = ⟨.ok (), w⟩ ∧ Between g w u := by
  have hmore : Kept t u := by
    have hgrown := (FileSystem.mk t working).writeFile_kept p content
    rw [h] at hgrown
    exact hgrown.trans hkept
  obtain ⟨dir, name, htarget⟩ := target_of_writeFile (congrArg Changed.result h)
  have hfirst := (FileSystem.mk t working).writeFile_written p content
  rw [h] at hfirst
  cases hfirst with
  | done place g hfold hfile hother =>
    have hplace : place = dir ++ [name] :=
      Option.some.inj (hfold.symm.trans (target_spec htarget).1)
    have hok : ((FileSystem.mk v working).writeFile p content).result = .ok () := by
      refine writeFile_of_target (target_named_kept (hbetween.kept_left hmore) htarget)
        (FileTree.get?_dropLast (hplace ▸ hfile)).1 fun hdir => ?_
      obtain ⟨_, hlast⟩ := hkept.file place content hfile
      cases hlast.symm.trans ((hbetween.kept_right hmore).directory place (hplace ▸ hdir))
    have hagain := (FileSystem.mk v working).writeFile_written p content
    generalize (FileSystem.mk v working).writeFile p content = made at hok hagain
    cases hagain with
    | failed fault => cases hok
    | done place' w hfold' hfile' hother' =>
      obtain rfl : place = place' := Option.some.inj (hfold.symm.trans hfold')
      refine ⟨w, rfl, fun other => ?_⟩
      by_cases ho : other = place
      · rw [ho]
        exact Or.inl (hfile'.trans hfile.symm)
      · rw [hother other ho, hother' other ho]
        exact hbetween other

/-- **A deep write that succeeded on a tree succeeds on one between it and a later one, and leaves
it between them.** -/
theorem writeDeep_again {t v g : FileTree} (hbetween : Between t v u) (hkept : Kept g u) {p : Path}
    {content : ByteArray} (h : (FileSystem.mk t working).writeDeep p content = ⟨.ok (), g⟩) :
    ∃ w, (FileSystem.mk v working).writeDeep p content = ⟨.ok (), w⟩ ∧ Between g w u := by
  unfold writeDeep at h ⊢
  cases hparent : p.parent with
  | none =>
    rw [hparent] at h
    exact writeFile_again hbetween hkept h
  | some dir =>
    rw [hparent] at h
    dsimp only at h ⊢
    split at h
    · cases h
    · rename_i t₁ hmade
      have hlast : Kept t₁ u := by
        have hgrown := (FileSystem.mk t₁ working).writeFile_kept p content
        rw [show (FileSystem.mk t₁ working).writeFile p content = ⟨.ok (), g⟩ from h] at hgrown
        exact hgrown.trans hkept
      obtain ⟨v₁, hmade', hbetween'⟩ :=
        createFirst_again (Path.pairwise_ancestors dir) hbetween hlast hmade
      rw [show (FileSystem.mk v working).createDirectories dir = _ from hmade']
      exact writeFile_again hbetween' hkept h

end Again

end FileSystem

end MasterSchema
