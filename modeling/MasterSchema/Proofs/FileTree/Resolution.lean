import MasterSchema.FileTree.Walk
import MasterSchema.Proofs.FileTree.Lookup
import MasterSchema.Proofs.Path.Parts

/-!
# Where a walk ends

A path that is walked through a tree ends where its fold says, or the walk fails; that is so from
every directory, for every number of `..` (`find_spec`, `target_spec`). A walk without `..` that
finds nothing has nothing to find (`get?_eq_none_of_notFound`).
-/

namespace MasterSchema

/-! ## 1. Walks -/

namespace FileTree

theorem enter_eq_ok {t : FileTree} {place : Location} (h : t.enter place = .ok ()) :
    t.get? place = some .directory := by
  unfold enter at h
  split at h
  · cases h
  · cases h
  · assumption

/-- Nothing is found to enter only where nothing is. -/
theorem enter_eq_notFound {t : FileTree} {place : Location} (h : t.enter place = .error .notFound) :
    t.get? place = none := by
  unfold enter at h
  split at h
  · assumption
  · cases h
  · cases h

/-- One step of a walk goes where the fold goes. -/
theorem step_eq_ok {t : FileTree} {place next : Location} {part : String}
    (h : t.step place part = .ok next) :
    t.get? place = some .directory
      ∧ next = ((Path.component? part).toList).foldl Path.foldStep place := by
  unfold step at h
  split at h
  · cases h
  · rename_i he
    refine ⟨enter_eq_ok he, ?_⟩
    rcases Path.component?_cases part with ⟨hv, hc⟩ | ⟨rfl, hc⟩ | ⟨hv, hu, hc⟩
    · rw [if_pos hv] at h
      rw [hc, ← Except.ok.inj h]; rfl
    · rw [if_neg (by decide), if_pos (by decide)] at h
      rw [hc, ← Except.ok.inj h]; rfl
    · rw [if_neg (by rw [hv]; exact Bool.false_ne_true), if_neg fun e => hu (beq_iff_eq.1 e)] at h
      split at h
      · cases h
      · rw [hc, ← Except.ok.inj h]; rfl

theorem filterMap_cons_toList (part : String) (rest : List String) :
    (part :: rest).filterMap Path.component?
      = (Path.component? part).toList ++ rest.filterMap Path.component? := by
  rw [List.filterMap_cons]
  cases Path.component? part <;> rfl

/-- **A walk that succeeds ends where the fold of its parts does.** -/
theorem walk_eq_ok {t : FileTree} : ∀ {parts : List String} {place final : Location},
    t.walk place parts = .ok final →
      final = (parts.filterMap Path.component?).foldl Path.foldStep place
  | [], _, _, h => (Except.ok.inj h).symm
  | part :: rest, place, final, h => by
      unfold walk at h
      split at h
      · cases h
      · rename_i next hs
        rw [filterMap_cons_toList, List.foldl_append, ← (step_eq_ok hs).2]
        exact walk_eq_ok h

/-- A step finds nothing only where nothing is. -/
theorem step_eq_notFound {t : FileTree} {place : Location} {part : String}
    (h : t.step place part = .error .notFound) : t.get? place = none := by
  unfold step at h
  split at h
  · rename_i he
    exact enter_eq_notFound (Except.error.inj h ▸ he)
  · split at h
    · cases h
    · split at h
      · cases h
      · split at h <;> cases h

/-- Where the fold of names finds an entry, the walk of their parts does not miss one. -/
theorem walk_ne_notFound {t : FileTree} : ∀ {parts : List String} {place : Location}
    {names : List String} {e : Entry}, parts.filterMap Path.component? = names.map Component.name →
      t.get? (place ++ names) = some e → t.walk place parts ≠ .error .notFound
  | [], _, _, _, _, _ => fun h => nomatch h
  | part :: rest, place, names, e, hn, hg => by
      intro h
      have hplace : t.get? place ≠ none := fun hnone => by
        rw [get?_eq_none_below (List.prefix_append place names) hnone] at hg
        cases hg
      rw [filterMap_cons_toList] at hn
      unfold walk at h
      split at h
      · rename_i fault hs
        rw [Except.error.inj h] at hs
        exact hplace (step_eq_notFound hs)
      · rename_i next hs
        have hnext := (step_eq_ok hs).2
        rcases Path.component?_cases part with ⟨_, hc⟩ | ⟨_, hc⟩ | ⟨_, _, hc⟩
        · rw [hc] at hn hnext
          obtain rfl : next = place := hnext
          exact walk_ne_notFound hn hg h
        · rw [hc] at hn
          cases names <;> cases hn
        · rw [hc] at hn hnext
          cases names with
          | nil => cases hn
          | cons name names =>
            obtain ⟨hname, hrest⟩ := List.cons.inj hn
            obtain rfl : part = name := Component.name.inj hname
            obtain rfl : next = place ++ [part] := hnext
            rw [List.append_cons] at hg
            exact walk_ne_notFound hrest hg h

end FileTree

/-! ## 2. Paths -/

namespace Path

theorem text_ne_of_fault? {p : Path} (h : p.fault? = none) : p.text ≠ "" := by
  intro he
  unfold fault? at h
  split at h
  · cases h
  · rw [if_pos (beq_iff_eq.2 he)] at h
    cases h

theorem text_eq_of_notFound {p : Path} (h : p.fault? = some .notFound) : p.text = "" := by
  unfold fault? at h
  split at h
  · cases h
  · split at h
    · rename_i he
      exact beq_iff_eq.1 he
    · split at h <;> cases h

/-- Slashes at the end of a path stand for nothing. -/
theorem steps_namedParts (p : Path) : p.namedParts.filterMap component? = p.steps :=
  filterMap_rdropWhile (· == "") (fun x hx => by
    rw [eq_of_beq hx]
    exact component?_of_vacuous rfl) p.parts

/-- The named parts but the last stand for first steps of the path. -/
theorem steps_front (p : Path) : p.namedParts.dropLast.filterMap component? <+: p.steps := by
  rw [← steps_namedParts]
  exact (List.dropLast_prefix _).filterMap _

theorem namedParts_last_ne {p : Path} {last : String} (h : p.namedParts.getLast? = some last) :
    last ≠ "" := by
  obtain ⟨front, hf⟩ := List.getLast?_eq_some_iff.1 h
  have hne : p.parts.rdropWhile (· == "") ≠ [] := by
    intro e
    have : p.namedParts = [] := e
    rw [this] at hf
    exact List.append_ne_nil_of_right_ne_nil front (List.cons_ne_nil last []) hf.symm
  have hlast := List.rdropWhile_last_not (· == "") p.parts hne
  have he : (p.parts.rdropWhile (· == "")).getLast hne = last := by
    have hg := List.getLast?_eq_some_getLast hne
    exact Option.some.inj (hg.symm.trans h)
  rw [he] at hlast
  exact fun e => hlast (beq_iff_eq.2 e)

theorem getLast?_namedParts {p : Path} {part : String} (h : p.parts.getLast? = some part)
    (hne : part ≠ "") : p.namedParts.getLast? = some part := by
  obtain ⟨front, hfront⟩ := List.getLast?_eq_some_iff.1 h
  have hparts : p.namedParts = p.parts.rdropWhile (· == "") := rfl
  rw [hparts, hfront, List.rdropWhile_concat_neg _ _ _ (by simpa using hne)]
  exact List.getLast?_concat

end Path

namespace FileSystem

theorem start_eq (fs : FileSystem) (p : Path) : fs.start p = p.origin fs.working := rfl

/-- **A path that is found is found where it folds to.** -/
theorem find_spec {fs : FileSystem} {p : Path} {place : Location} {e : Entry}
    (h : fs.find p = .ok (place, e)) :
    p.fold? fs.working = some place ∧ fs.tree.get? place = some e := by
  unfold find at h
  split at h
  · cases h
  · rename_i hf
    split at h
    · cases h
    · rename_i found hw
      split at h
      · cases h
      · rename_i entry hg
        obtain ⟨rfl, rfl⟩ := Prod.mk.inj (Except.ok.inj h)
        rw [Path.fold?_eq (Path.text_ne_of_fault? hf), FileTree.walk_eq_ok hw]
        exact ⟨rfl, FileTree.walk_eq_ok hw ▸ hg⟩

/-- What a walk has gone through when a path wants a name made or removed. -/
theorem target_eq_named {fs : FileSystem} {p : Path} {dir : Location} {name : String}
    {slashed : Bool} (h : fs.target p = .ok (.named dir name slashed)) :
    p.fault? = none ∧ p.namedParts.getLast? = some name ∧ name ≠ "." ∧ name ≠ ".."
      ∧ fs.tree.walk (fs.start p) p.namedParts.dropLast = .ok dir
      ∧ fs.tree.get? dir = some .directory := by
  unfold target at h
  split at h
  · cases h
  · rename_i hf
    split at h
    · cases h
    · rename_i last hl
      split at h
      · cases h
      · rename_i before hw
        split at h
        · cases h
        · rename_i he
          split at h
          · cases h
          · rename_i hdot
            split at h
            · cases h
            · rename_i hup
              obtain ⟨rfl, rfl, _⟩ := Target.named.inj (Except.ok.inj h)
              exact ⟨hf, hl, fun e => hdot (beq_iff_eq.2 e), fun e => hup (beq_iff_eq.2 e), hw,
                FileTree.enter_eq_ok he⟩

/-- **A name that a path wants made or removed is the one it folds to.** The directory before it
is there. -/
theorem target_spec {fs : FileSystem} {p : Path} {dir : Location} {name : String} {slashed : Bool}
    (h : fs.target p = .ok (.named dir name slashed)) :
    p.fold? fs.working = some (dir ++ [name]) ∧ fs.tree.get? dir = some .directory := by
  obtain ⟨hf, hl, hdot, hup, hw, hd⟩ := target_eq_named h
  refine ⟨?_, hd⟩
  have hname := Path.component?_of_name (Path.namedParts_last_ne hl) hdot hup
  have hsteps : p.steps = p.namedParts.dropLast.filterMap Path.component? ++ [.name name] := by
    obtain ⟨front, hfront⟩ := List.getLast?_eq_some_iff.1 hl
    rw [← Path.steps_namedParts, hfront, List.dropLast_concat, List.filterMap_append]
    exact congrArg _ (List.filterMap_cons_some hname)
  rw [Path.fold?_eq (Path.text_ne_of_fault? hf), hsteps, List.foldl_append,
    FileTree.walk_eq_ok hw]
  rfl

/-- What is not found is the empty path, is missed on the way, or is not there in the end. -/
theorem find_eq_notFound {fs : FileSystem} {p : Path} (h : fs.find p = .error .notFound) :
    p.text = "" ∨ fs.tree.walk (fs.start p) p.parts = .error .notFound
      ∨ ∃ place, fs.tree.walk (fs.start p) p.parts = .ok place ∧ fs.tree.get? place = none := by
  unfold find at h
  split at h
  · rename_i fault hf
    rw [Except.error.inj h] at hf
    exact Or.inl (Path.text_eq_of_notFound hf)
  · split at h
    · rename_i fault hw
      exact Or.inr (Or.inl (Except.error.inj h ▸ hw))
    · rename_i place hw
      split at h
      · rename_i hnone
        exact Or.inr (Or.inr ⟨place, hw, hnone⟩)
      · cases h

/-- Where a path without `..` is not found, nothing is. -/
theorem get?_eq_none_of_notFound {fs : FileSystem} {p : Path} {place : Location}
    (hup : Component.up ∉ p.steps) (h : fs.find p = .error .notFound)
    (hp : p.fold? fs.working = some place) : fs.tree.get? place = none := by
  obtain ⟨names, hn⟩ := Path.steps_eq_names hup
  have ht : p.text ≠ "" := Path.text_ne_of_fold? hp
  rw [Path.fold?_eq ht, hn, Path.foldl_foldStep_names, ← start_eq] at hp
  obtain rfl := Option.some.inj hp
  rcases find_eq_notFound h with he | hw | ⟨there, hw, hnone⟩
  · exact absurd he ht
  · cases hg : fs.tree.get? (fs.start p ++ names) with
    | none => rfl
    | some e => exact absurd hw (FileTree.walk_ne_notFound hn hg)
  · have hthere := FileTree.walk_eq_ok hw
    rw [show p.parts.filterMap Path.component? = names.map Component.name from hn,
      Path.foldl_foldStep_names] at hthere
    rw [← hthere]
    exact hnone

end FileSystem

end MasterSchema
