import Mathlib.Logic.Relation
import MasterSchema.Proofs.FileTree.Reaching

/-!
# Folding as a normal form

A fold leaves nothing but names, and a location that is written as a path folds to itself
(`isName_of_mem_fold?`, `fold?_ofLocation`). The same place can be written in many ways: a `.`, or a
name and `..` behind it, leads nowhere and may stand between any two parts of a path or at its end
(`Detour`). Paths that differ in detours alone lead the same way, and so do the paths that are
joined from them (`SameWay.of_detours`, `SameWay.join`).
-/

namespace MasterSchema.Path

/-! ## 1. Locations of names -/

/-- A text that is a name, not a special part and not several parts. -/
structure IsName (name : String) : Prop where
  component : component? name = some (.name name)
  slash : '/' ∉ name.toList

theorem isName_of_isFileName {name : String} (h : isFileName name = true) : IsName name :=
  ⟨(fileName_of_isFileName h).component?, (fileName_of_isFileName h).slash⟩

theorem IsName.ne_empty {name : String} (h : IsName name) : name ≠ "" := by
  rintro rfl
  exact nomatch h.component

/-- A step to a name comes from a part that is this name. -/
theorem isName_of_mem_steps {p : Path} {name : String} (h : Component.name name ∈ p.steps) :
    IsName name := by
  obtain ⟨part, hpart, hc⟩ := List.mem_filterMap.1 h
  rcases component?_cases part with ⟨_, hnone⟩ | ⟨_, hup⟩ | ⟨_, _, hname⟩
  · cases hnone.symm.trans hc
  · cases hup.symm.trans hc
  · obtain rfl : part = name := Component.name.inj (Option.some.inj (hname.symm.trans hc))
    exact ⟨hname, slash_not_mem_of_mem_parts hpart⟩

/-- One step from a location of names leads to one. -/
theorem isName_of_mem_foldStep {place : Location} (h : ∀ name ∈ place, IsName name)
    {step : Component} (hstep : ∀ name, step = .name name → IsName name) :
    ∀ name ∈ foldStep place step, IsName name := by
  cases step with
  | root => exact fun _ hm => absurd hm List.not_mem_nil
  | here => exact h
  | up => exact fun name hm => h name (List.dropLast_subset place hm)
  | name last =>
    exact List.forall_mem_append.2 ⟨h, by simpa using hstep last rfl⟩

theorem isName_of_mem_foldl : ∀ {steps : List Component} {place : Location},
    (∀ name ∈ place, IsName name) → (∀ name, Component.name name ∈ steps → IsName name) →
    ∀ name ∈ steps.foldl foldStep place, IsName name
  | [], _, h, _ => h
  | step :: rest, place, h, hsteps => by
      have hnext : ∀ name ∈ foldStep place step, IsName name :=
        isName_of_mem_foldStep h fun name e => hsteps name (e ▸ List.mem_cons_self)
      rw [List.foldl_cons]
      exact isName_of_mem_foldl hnext fun name hm => hsteps name (List.mem_cons_of_mem _ hm)

/-- **A path folds to names alone.** -/
theorem isName_of_mem_fold? {working place : Location} {p : Path}
    (hworking : ∀ name ∈ working, IsName name) (h : p.fold? working = some place) :
    ∀ name ∈ place, IsName name := by
  rw [fold?_eq (text_ne_of_fold? h)] at h
  rw [← Option.some.inj h]
  refine isName_of_mem_foldl ?_ fun _ => isName_of_mem_steps
  unfold origin
  split
  · exact fun _ hm => absurd hm List.not_mem_nil
  · exact hworking

/-! ## 2. Locations as paths -/

/-- A location as an absolute path. -/
def ofLocation (place : Location) : Path := ⟨"/" ++ Text.joined "/" place⟩

section Location

variable {place : Location} (h : ∀ name ∈ place, IsName name)

theorem isAbsolute_ofLocation (place : Location) : (ofLocation place).isAbsolute = true := by
  have hchars : (ofLocation place).text.toList = '/' :: (Text.joined "/" place).toList := by
    simp [ofLocation]
  rw [isAbsolute, hchars]
  rfl

include h

theorem steps_ofLocation : (ofLocation place).steps = place.map Component.name := by
  have hparts : (ofLocation place).parts = "" :: (Path.mk (Text.joined "/" place)).parts := by
    have hslash := parts_append_slash "" (Text.joined "/" place)
    rwa [String.empty_append] at hslash
  rw [steps, hparts, List.filterMap_cons_none (component?_of_vacuous rfl)]
  by_cases hne : place = []
  · subst hne
    rfl
  · rw [parts_joined hne fun name hm => (h name hm).slash, ← List.filterMap_eq_map]
    exact List.filterMap_congr fun name hm => (h name hm).component

/-- **The path of a location is its names behind the root.** -/
theorem components_ofLocation :
    (ofLocation place).components = .root :: place.map Component.name := by
  rw [components, if_pos (isAbsolute_ofLocation place)]
  exact congrArg _ (steps_ofLocation h)

/-- **The path of a location folds to it, from anywhere.** -/
theorem fold?_ofLocation (working : Location) : (ofLocation place).fold? working = some place := by
  have hne : (ofLocation place).text ≠ "" := by
    intro he
    have habsolute := isAbsolute_ofLocation place
    rw [isAbsolute, he] at habsolute
    cases habsolute
  rw [fold?_eq hne, steps_ofLocation h, foldl_foldStep_names, origin,
    if_pos (isAbsolute_ofLocation place), List.nil_append]

end Location

/-! ## 3. Paths that lead the same way -/

/-- Two paths that lead to one place, wherever they are taken from. -/
structure SameWay (p q : Path) : Prop where
  isAbsolute : p.isAbsolute = q.isAbsolute
  ends : ∀ place, p.steps.foldl foldStep place = q.steps.foldl foldStep place

namespace SameWay

variable {p q r p' q' : Path}

theorem refl (p : Path) : SameWay p p := ⟨rfl, fun _ => rfl⟩

theorem trans (h : SameWay p q) (h' : SameWay q r) : SameWay p r :=
  ⟨h.isAbsolute.trans h'.isAbsolute, fun place => (h.ends place).trans (h'.ends place)⟩

theorem fold?_eq (h : SameWay p q) (hp : p.text ≠ "") (hq : q.text ≠ "") (working : Location) :
    p.fold? working = q.fold? working := by
  rw [Path.fold?_eq hp, Path.fold?_eq hq, h.ends, origin, origin, h.isAbsolute]

/-- **What is joined from paths that lead the same way leads the same way.** -/
theorem join (h : SameWay p q) (h' : SameWay p' q') : SameWay (p.join p') (q.join q') := by
  cases habsolute : p'.isAbsolute with
  | true =>
    rw [join_absolute habsolute, join_absolute (h'.isAbsolute ▸ habsolute)]
    exact h'
  | false =>
    have habsolute' : q'.isAbsolute = false := h'.isAbsolute ▸ habsolute
    refine ⟨?_, fun place => ?_⟩
    · rw [isAbsolute_join habsolute, isAbsolute_join habsolute', h.isAbsolute]
    · rw [steps_join habsolute, steps_join habsolute', List.foldl_append, List.foldl_append,
        h.ends, h'.ends]

end SameWay

/-! ## 4. Detours -/

/-- A text that leads nowhere: the directory it stands in, or a name and back. -/
inductive Idle : String → Prop where
  | here : Idle "."
  | back {name : String} : IsName name → Idle (name ++ "/..")

namespace Idle

variable {idle : String}

theorem relative (h : Idle idle) : (Path.mk idle).isAbsolute = false := by
  cases h with
  | here => decide
  | @back name hname =>
    have hne : name.toList ≠ [] := fun e => hname.ne_empty (String.toList_eq_nil_iff.1 e)
    rw [isAbsolute, String.toList_append, List.head?_append_of_ne_nil _ hne]
    exact isAbsolute_name hname.ne_empty hname.slash

/-- **An idle text leads nowhere**, also at the root: the name that `..` takes away is its own. -/
theorem foldl_steps (h : Idle idle) (place : Location) :
    (Path.mk idle).steps.foldl foldStep place = place := by
  cases h with
  | here => rfl
  | @back name hname =>
    have hparts : (Path.mk (name ++ "/..")).parts = [name, ".."] := by
      have hslash := parts_append_slash name ".."
      rwa [String.append_assoc, parts_of_not_mem hname.slash] at hslash
    have hsteps : (Path.mk (name ++ "/..")).steps = [.name name, .up] := by
      rw [steps, hparts, List.filterMap_cons_some hname.component]
      rfl
    rw [hsteps, List.foldl_cons, foldStep, List.foldl_cons, foldStep, List.dropLast_concat]
    rfl

end Idle

/-- An idle text is put between two parts of a path, or at its end. -/
inductive Detour : Path → Path → Prop where
  | between (front back : String) {idle : String} : Idle idle →
      Detour ⟨front ++ "/" ++ back⟩ ⟨front ++ "/" ++ idle ++ "/" ++ back⟩
  | behind (p : Path) {idle : String} : Idle idle → Detour p (p.join ⟨idle⟩)

theorem isAbsolute_append_slash (front back : String) :
    (Path.mk (front ++ "/" ++ back)).isAbsolute = (Path.mk (front ++ "/")).isAbsolute := by
  have hne : (front ++ "/").toList ≠ [] := by simp
  rw [isAbsolute, isAbsolute, String.toList_append, List.head?_append_of_ne_nil _ hne]

theorem steps_append_slash (front back : String) :
    (Path.mk (front ++ "/" ++ back)).steps = (Path.mk front).steps ++ (Path.mk back).steps := by
  rw [steps, parts_append_slash, List.filterMap_append]
  rfl

/-- **A detour leads the same way.** -/
theorem SameWay.of_detour {p q : Path} (h : Detour p q) : SameWay p q := by
  cases h with
  | @between front back idle hidle =>
    -- what stands before the first slash decides whether the path is absolute, and stays
    have hlong : front ++ "/" ++ idle ++ "/" ++ back = front ++ "/" ++ (idle ++ "/" ++ back) := by
      simp only [String.append_assoc]
    rw [hlong]
    refine ⟨?_, fun place => ?_⟩
    · rw [isAbsolute_append_slash, isAbsolute_append_slash]
    · rw [steps_append_slash, steps_append_slash, steps_append_slash, List.foldl_append,
        List.foldl_append, List.foldl_append, hidle.foldl_steps]
  | behind _ hidle =>
    refine ⟨(isAbsolute_join hidle.relative _).symm, fun place => ?_⟩
    rw [steps_join hidle.relative, List.foldl_append, hidle.foldl_steps]

/-- **Any number of detours leads the same way.** -/
theorem SameWay.of_detours {p q : Path} (h : Relation.ReflTransGen Detour p q) : SameWay p q := by
  induction h with
  | refl => exact .refl p
  | tail _ hdetour ih => exact ih.trans (.of_detour hdetour)

/-- Detours leave a path that is not empty so. -/
theorem text_ne_of_detours {p q : Path} (hp : p.text ≠ "")
    (h : Relation.ReflTransGen Detour p q) : q.text ≠ "" := by
  induction h with
  | refl => exact hp
  | tail _ hdetour ih =>
    cases hdetour with
    | between front back _ =>
      intro he
      simpa using congrArg String.toList he
    | behind p _ => exact text_ne_join ih _

end MasterSchema.Path
