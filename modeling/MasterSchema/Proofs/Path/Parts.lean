import Mathlib.Data.List.DropRight
import MasterSchema.Path.Fold

/-!
# Paths part by part

The fold of a path depends on two things only: whether the path is absolute, and its `steps`, the
components that the parts of its text stand for.

* `fold?_eq` is the fold in these terms;
* joining appends steps (`steps_join`), taking the parent drops the last one (`parent_spec`), and
  so the ancestors of a path have its first steps (`ancestors_spec`);
* a text written behind a last name is part of that name (`parts_append`).
-/

namespace MasterSchema.Path

/-! ## 1. Texts and parts -/

theorem parts_mk (s : String) : (Path.mk s).parts = (s.toList.splitOn '/').map String.ofList := rfl

theorem parts_ne_nil (p : Path) : p.parts ≠ [] := by
  rw [parts, ne_eq, List.map_eq_nil_iff]
  exact List.splitOn_ne_nil '/' p.text.toList

theorem parts_append_slash (a b : String) :
    (Path.mk (a ++ "/" ++ b)).parts = (Path.mk a).parts ++ (Path.mk b).parts := by
  have hs : (a ++ "/" ++ b).toList = a.toList ++ '/' :: b.toList := by simp
  rw [parts_mk, hs, List.splitOn_append_cons_self, List.map_append]
  rfl

theorem parts_of_not_mem {s : String} (h : '/' ∉ s.toList) : (Path.mk s).parts = [s] := by
  rw [parts_mk, List.splitOn_eq_singleton h, List.map_singleton, String.ofList_toList]

theorem not_mem_of_mem_splitOn {α : Type} [BEq α] [LawfulBEq α] {a : α} :
    ∀ {l : List α}, ∀ part ∈ l.splitOn a, a ∉ part
  | [], part, h => by
      rw [List.splitOn_nil, List.mem_singleton] at h
      rw [h]
      exact List.not_mem_nil
  | x :: l, part, h => by
      have ih := not_mem_of_mem_splitOn (a := a) (l := l)
      rw [List.splitOn_cons_eq_if_modifyHead] at h
      split at h
      · rcases List.mem_cons.1 h with rfl | h
        · exact List.not_mem_nil
        · exact ih part h
      · rename_i hx
        have hne : x ≠ a := fun e => hx (beq_iff_eq.2 e)
        cases hl : l.splitOn a with
        | nil => exact absurd hl (List.splitOn_ne_nil a l)
        | cons first rest =>
          rw [hl, List.modifyHead_cons] at h
          rw [hl] at ih
          rcases List.mem_cons.1 h with rfl | h
          · rw [List.mem_cons, not_or]
            exact ⟨hne.symm, ih first List.mem_cons_self⟩
          · exact ih part (List.mem_cons_of_mem _ h)

theorem slash_not_mem_of_mem_parts {p : Path} {part : String} (h : part ∈ p.parts) :
    '/' ∉ part.toList := by
  obtain ⟨cs, hcs, rfl⟩ := List.mem_map.1 h
  rw [String.toList_ofList]
  exact not_mem_of_mem_splitOn cs hcs

/-- A path that is joined from parts has these parts. -/
theorem parts_joined {l : List String} (hne : l ≠ []) (h : ∀ s ∈ l, '/' ∉ s.toList) :
    (Path.mk (Text.joined "/" l)).parts = l := by
  rw [parts_mk, Text.joined_eq_intercalate, String.toList_intercalate]
  have hs : ("/" : String).toList = ['/'] := by simp
  rw [hs, List.splitOn_intercalate]
  · rw [List.map_map]
    exact List.map_id'' (fun s => String.ofList_toList) l
  · intro cs hcs
    obtain ⟨s, hm, rfl⟩ := List.mem_map.1 hcs
    exact h s hm
  · rwa [ne_eq, List.map_eq_nil_iff]

theorem splitOn_append {α : Type} [BEq α] [LawfulBEq α] {a : α} {ys : List α} (h : a ∉ ys) :
    ∀ xs : List α, ∃ front last, (xs ++ ys).splitOn a = front ++ [last ++ ys]
  | [] => ⟨[], [], List.splitOn_eq_singleton h⟩
  | x :: xs => by
      obtain ⟨front, last, ih⟩ := splitOn_append h xs
      rw [List.cons_append, List.splitOn_cons_eq_if_modifyHead, ih]
      split
      · exact ⟨[] :: front, last, rfl⟩
      · cases front with
        | nil => exact ⟨[], x :: last, rfl⟩
        | cons first front => exact ⟨(x :: first) :: front, last, rfl⟩

/-- What is written behind a text without a slash belongs to the last part. -/
theorem parts_append (a : String) {b : String} (h : '/' ∉ b.toList) :
    ∃ front last, (Path.mk (a ++ b)).parts = front ++ [last ++ b] := by
  obtain ⟨front, last, hs⟩ := splitOn_append h a.toList
  refine ⟨front.map String.ofList, String.ofList last, ?_⟩
  rw [parts_mk, String.toList_append, hs, List.map_append, List.map_singleton,
    String.ofList_append, String.ofList_toList]

/-- An absolute path is one with an empty part in front of others. -/
theorem isAbsolute_iff (p : Path) :
    p.isAbsolute = true ↔ ∃ rest, rest ≠ [] ∧ p.parts = "" :: rest := by
  rw [isAbsolute, parts]
  cases p.text.toList with
  | nil => simp
  | cons c cs =>
    rw [List.splitOn_cons_eq_if_modifyHead]
    by_cases hc : c = '/'
    · subst hc
      simp
    · cases hs : cs.splitOn '/' with
      | nil => exact absurd hs (List.splitOn_ne_nil '/' cs)
      | cons first rest => simp [hc]

/-- A path of nothing but slashes is absolute. -/
theorem isAbsolute_of_parts_empty {p : Path} (ht : p.text ≠ "") (h : ∀ part ∈ p.parts, part = "") :
    p.isAbsolute = true := by
  obtain ⟨text⟩ := p
  by_cases hslash : '/' ∈ text.toList
  · obtain ⟨front, back, hsplit⟩ := List.append_of_mem hslash
    have htext : text = String.ofList front ++ "/" ++ String.ofList back := by
      rw [← String.toList_inj, hsplit]
      simp
    rw [htext, parts_append_slash] at h
    obtain ⟨first, rest, hfront⟩ := List.exists_cons_of_ne_nil (parts_ne_nil ⟨String.ofList front⟩)
    refine (isAbsolute_iff _).2 ⟨rest ++ (Path.mk (String.ofList back)).parts,
      List.append_ne_nil_of_right_ne_nil _ (parts_ne_nil _), ?_⟩
    have hfirst : first = "" := h first (by rw [hfront]; exact List.mem_cons_self)
    rw [htext, parts_append_slash, hfront, hfirst]
    rfl
  · exact absurd (h text (by rw [parts_of_not_mem hslash]; exact List.mem_cons_self)) ht

/-! ## 2. Steps -/

/-- What the parts of a path stand for. -/
def steps (p : Path) : List Component := p.parts.filterMap component?

/-- Where a path starts. -/
def origin (working : Location) (p : Path) : Location :=
  if p.isAbsolute then [] else working

theorem fold?_eq {p : Path} (h : p.text ≠ "") (working : Location) :
    p.fold? working = some (p.steps.foldl foldStep (p.origin working)) := by
  rw [fold?, if_neg (by simpa using h), components, origin]
  by_cases ha : p.isAbsolute = true
  · rw [if_pos ha, if_pos ha]; rfl
  · rw [if_neg ha, if_neg ha]
    split <;> rfl

theorem text_ne_of_fold? {p : Path} {working place : Location}
    (h : p.fold? working = some place) : p.text ≠ "" := by
  intro e
  rw [fold?, if_pos (beq_iff_eq.2 e)] at h
  cases h

theorem text_ne_of_steps {p : Path} (h : p.steps ≠ []) : p.text ≠ "" := by
  obtain ⟨text⟩ := p
  rintro rfl
  exact h rfl

/-- A path whose last step is a name folds to a location of that name. -/
theorem fold?_of_getLast? {p : Path} {name : String} (h : p.steps.getLast? = some (.name name))
    (working : Location) : ∃ dir, p.fold? working = some (dir ++ [name]) := by
  obtain ⟨front, hs⟩ := List.getLast?_eq_some_iff.1 h
  refine ⟨front.foldl foldStep (p.origin working), ?_⟩
  rw [fold?_eq (text_ne_of_steps (hs ▸ List.append_ne_nil_of_right_ne_nil front
    (List.cons_ne_nil _ []))), hs, List.foldl_append]
  rfl

/-- A step leads up or to a name, and only the name `..` leads up. -/
theorem component?_cases (part : String) :
    (isVacuous part = true ∧ component? part = none) ∨
      (part = ".." ∧ component? part = some .up) ∨
      (isVacuous part = false ∧ part ≠ ".." ∧ component? part = some (.name part)) := by
  unfold component?
  by_cases hv : isVacuous part = true
  · rw [if_pos hv]; exact Or.inl ⟨hv, rfl⟩
  · rw [if_neg hv]
    by_cases hu : part = ".."
    · rw [if_pos (beq_iff_eq.2 hu)]; exact Or.inr (Or.inl ⟨hu, rfl⟩)
    · rw [if_neg (fun e => hu (beq_iff_eq.1 e))]
      exact Or.inr (Or.inr ⟨Bool.eq_false_iff.2 hv, hu, rfl⟩)

theorem component?_of_vacuous {part : String} (h : isVacuous part = true) :
    component? part = none := by
  rw [component?, if_pos h]

/-- Every part but the three special ones is a name. -/
theorem component?_of_name {part : String} (hne : part ≠ "") (hdot : part ≠ ".")
    (hup : part ≠ "..") : component? part = some (.name part) := by
  have hv : isVacuous part = false := by
    rw [isVacuous, beq_false_of_ne hne, beq_false_of_ne hdot]
    rfl
  rcases component?_cases part with ⟨h, _⟩ | ⟨h, _⟩ | ⟨_, _, h⟩
  · rw [hv] at h; cases h
  · exact absurd h hup
  · exact h

theorem component?_isSome {part : String} (hv : isVacuous part = false) :
    (component? part).isSome = true := by
  rcases component?_cases part with ⟨h, _⟩ | ⟨_, h⟩ | ⟨_, _, h⟩
  · rw [hv] at h; cases h
  · rw [h]; rfl
  · rw [h]; rfl

/-- The components of a path end as its steps do. -/
theorem getLast?_steps {p : Path} {name : String} (h : p.components.getLast? = some (.name name)) :
    p.steps.getLast? = some (.name name) := by
  have hcons : ∀ first : Component, (∀ n, first ≠ .name n) →
      (first :: p.steps).getLast? = some (.name name) → p.steps.getLast? = some (.name name) := by
    intro first hfirst hl
    cases hs : p.steps with
    | nil => rw [hs] at hl; exact absurd (Option.some.inj hl) (hfirst name)
    | cons s rest => rw [hs, List.getLast?_cons_cons] at hl; exact hl
  unfold components at h
  split at h
  · exact hcons .root (fun _ e => nomatch e) h
  · split at h
    · exact hcons .here (fun _ e => nomatch e) h
    · exact h

/-- A path whose last step is a name has it as its file name. -/
theorem fileName_of_getLast? {p : Path} {name : String}
    (h : p.steps.getLast? = some (.name name)) : p.fileName = some name := by
  have hcons : ∀ first : Component, (first :: p.steps).getLast? = some (.name name) :=
    fun first => by rw [List.getLast?_cons, h]; rfl
  have hcomponents : p.components.getLast? = some (.name name) := by
    unfold components
    split
    · exact hcons .root
    · split
      · exact hcons .here
      · exact h
  rw [fileName, hcomponents]

/-! ## 3. Joining -/

theorem endsInSlash_spec {p : Path} (h : p.endsInSlash = true) :
    ∃ front : String, p.text = front ++ "/" ∧ p.parts = (Path.mk front).parts ++ [""] := by
  obtain ⟨cs, hcs⟩ := List.getLast?_eq_some_iff.1 (beq_iff_eq.1 h)
  have ht : p.text = String.ofList cs ++ "/" := by
    rw [← String.toList_inj, hcs, String.toList_append, String.toList_ofList]
    simp
  refine ⟨String.ofList cs, ht, ?_⟩
  have hparts := parts_append_slash (String.ofList cs) ""
  rw [String.append_empty, ← ht] at hparts
  exact hparts

theorem join_absolute {p : Path} (h : p.isAbsolute = true) (base : Path) : base.join p = p := by
  rw [join, if_pos h]

/-- A relative path that is joined adds its parts behind the others. An empty part at the end of
    the base gives way to them. -/
theorem parts_join {base p : Path} (h : p.isAbsolute = false) (hb : base.text ≠ "") :
    (base.join p).parts =
      (if base.endsInSlash then base.parts.dropLast else base.parts) ++ p.parts := by
  rw [join, if_neg (by rw [h]; exact Bool.false_ne_true)]
  by_cases hs : base.endsInSlash = true
  · obtain ⟨front, ht, hfront⟩ := endsInSlash_spec hs
    rw [if_pos (by rw [hs, Bool.or_true]), if_pos hs, ht, hfront, List.dropLast_concat]
    exact parts_append_slash front p.text
  · rw [if_neg hs, if_neg (by simp [hs, hb])]
    exact parts_append_slash base.text p.text

/-- **A relative path that is joined adds its steps behind the others.** -/
theorem steps_join {p : Path} (h : p.isAbsolute = false) (base : Path) :
    (base.join p).steps = base.steps ++ p.steps := by
  by_cases hb : base.text = ""
  · obtain ⟨base⟩ := base
    obtain rfl : base = "" := hb
    rw [join, if_neg (by rw [h]; exact Bool.false_ne_true), if_pos (by simp), String.empty_append]
    rfl
  · rw [steps, parts_join h hb, List.filterMap_append]
    split
    · rename_i hs
      obtain ⟨front, _, hfront⟩ := endsInSlash_spec hs
      rw [steps, hfront, List.dropLast_concat, List.filterMap_append]
      exact congrArg (· ++ _) (List.append_nil _).symm
    · rfl

theorem isAbsolute_join {p : Path} (h : p.isAbsolute = false) (base : Path) :
    (base.join p).isAbsolute = base.isAbsolute := by
  rw [join, if_neg (by rw [h]; exact Bool.false_ne_true)]
  obtain ⟨base⟩ := base
  obtain ⟨text⟩ := p
  by_cases hb : base = ""
  · subst hb
    rw [if_pos (by simp), String.empty_append, h]
    rfl
  · have hhead : ∀ s : String, (Path.mk (base ++ s)).isAbsolute = (Path.mk base).isAbsolute := by
      intro s
      have hne : base.toList ≠ [] := fun e => hb (String.toList_eq_nil_iff.1 e)
      rw [isAbsolute, isAbsolute, String.toList_append, List.head?_append_of_ne_nil _ hne]
    split
    · exact hhead text
    · rw [String.append_assoc]; exact hhead _

/-- What is joined to a path that is not empty is not empty. -/
theorem text_ne_join {base : Path} (h : base.text ≠ "") (p : Path) : (base.join p).text ≠ "" := by
  have hne : ∀ s : String, base.text ++ s ≠ "" := by
    intro s he
    exact h (String.append_eq_empty_iff.1 he).1
  unfold join
  split
  · rename_i habsolute
    intro he
    rw [isAbsolute, he] at habsolute
    cases habsolute
  · split
    · exact hne p.text
    · rw [String.append_assoc]
      exact hne _

/-- The last step of a path stays the last one behind any base. -/
theorem getLast?_steps_join {p : Path} {s : Component} (h : p.steps.getLast? = some s)
    (base : Path) : (base.join p).steps.getLast? = some s := by
  by_cases ha : p.isAbsolute = true
  · rw [join_absolute ha]; exact h
  · rw [steps_join (Bool.eq_false_iff.2 ha), List.getLast?_append, h]
    rfl

/-- A path that is joined ends as its last part does. -/
theorem getLast?_parts_join {p : Path} {part : String} (h : p.parts.getLast? = some part)
    (base : Path) : (base.join p).parts.getLast? = some part := by
  by_cases ha : p.isAbsolute = true
  · rw [join_absolute ha]
    exact h
  · have hrelative := Bool.eq_false_iff.2 ha
    by_cases hbase : base.text = ""
    · obtain ⟨base⟩ := base
      obtain rfl : base = "" := hbase
      rw [join, if_neg ha, if_pos (by simp), String.empty_append]
      exact h
    · rw [parts_join hrelative hbase, List.getLast?_append, h]
      rfl

/-! ## 4. Parents -/

theorem filterMap_rdropWhile {α β : Type} {f : α → Option β} (drop : α → Bool)
    (h : ∀ x, drop x = true → f x = none) (l : List α) :
    (l.rdropWhile drop).filterMap f = l.filterMap f := by
  induction l using List.reverseRecOn with
  | nil => rw [List.rdropWhile_nil]
  | append_singleton l x ih =>
    by_cases hx : drop x = true
    · rw [List.rdropWhile_concat_pos _ _ _ hx, ih, List.filterMap_append,
        List.filterMap_cons_none (h x hx), List.filterMap_nil, List.append_nil]
    · rw [List.rdropWhile_concat_neg _ _ _ hx]

theorem filterMap_withoutVacuousEnd (l : List String) :
    (withoutVacuousEnd l).filterMap component? = l.filterMap component? :=
  filterMap_rdropWhile isVacuous (fun _ h => component?_of_vacuous h) l

/-- A list that ends in a part with a step loses that step with the part. -/
theorem filterMap_dropLast {l : List String} (hl : withoutVacuousEnd l ≠ []) :
    (withoutVacuousEnd l).dropLast.filterMap component? = (l.filterMap component?).dropLast
      ∧ l.filterMap component? ≠ [] := by
  have hlast := List.rdropWhile_last_not isVacuous l hl
  have hsplit := List.dropLast_append_getLast hl
  obtain ⟨s, hs⟩ := Option.isSome_iff_exists.1 (component?_isSome (Bool.eq_false_iff.2 hlast))
  have hmap : l.filterMap component? = (withoutVacuousEnd l).dropLast.filterMap component? ++ [s] := by
    rw [← filterMap_withoutVacuousEnd l]
    conv_lhs => rw [← hsplit]
    rw [List.filterMap_append]
    exact congrArg _ (List.filterMap_cons_some hs)
  rw [hmap, List.dropLast_concat]
  exact ⟨rfl, List.append_ne_nil_of_right_ne_nil _ (List.cons_ne_nil s [])⟩

theorem mem_of_mem_withoutVacuousEnd {l : List String} {part : String}
    (h : part ∈ withoutVacuousEnd l) : part ∈ l :=
  (List.rdropWhile_prefix isVacuous l).subset h

/-- The steps of a path and whether it is absolute, told by its first part and the others. -/
theorem steps_of_parts {p : Path} {first : String} {rest : List String}
    (hp : p.parts = first :: rest) :
    p.steps = (component? first).toList ++ rest.filterMap component?
      ∧ (p.isAbsolute = true ↔ first = "" ∧ rest ≠ []) := by
  constructor
  · rw [steps, hp, List.filterMap_cons]
    cases component? first <;> rfl
  · rw [isAbsolute_iff, hp]
    constructor
    · intro h
      obtain ⟨other, hne, he⟩ := h
      obtain ⟨rfl, rfl⟩ := List.cons.inj he
      exact ⟨rfl, hne⟩
    · intro h
      exact ⟨rest, h.2, h.1 ▸ rfl⟩

/-- The three forms of a parent: the empty path, the first part alone, the first part with others. -/
theorem parent_cases {p q : Path} {first : String} {rest : List String}
    (hp : p.parts = first :: rest) (h : p.parent = some q) :
    (withoutVacuousEnd rest = [] ∧ first ≠ "" ∧ q = ⟨""⟩) ∨
      (withoutVacuousEnd rest ≠ [] ∧ withoutVacuousEnd (withoutVacuousEnd rest).dropLast = []
        ∧ q = ⟨if first == "" then "/" else first⟩) ∨
      (withoutVacuousEnd rest ≠ [] ∧ withoutVacuousEnd (withoutVacuousEnd rest).dropLast ≠ []
        ∧ q = ⟨Text.joined "/" (first :: withoutVacuousEnd (withoutVacuousEnd rest).dropLast)⟩) := by
  rw [parent, hp] at h
  cases hv : withoutVacuousEnd rest with
  | nil =>
    simp only [hv] at h
    split at h
    · cases h
    · rename_i hf
      exact Or.inl ⟨rfl, fun e => hf (beq_iff_eq.2 e), (Option.some.inj h).symm⟩
  | cons part more =>
    simp only [hv] at h
    split at h
    · rename_i hk
      exact Or.inr (Or.inl ⟨List.cons_ne_nil part more, hk, (Option.some.inj h).symm⟩)
    · rename_i hk
      exact Or.inr (Or.inr ⟨List.cons_ne_nil part more, hk, (Option.some.inj h).symm⟩)

/-- The first part of a path as a path of its own, the root for an empty one. -/
theorem steps_first {first : String} (h : '/' ∉ first.toList) :
    (Path.mk (if first == "" then "/" else first)).steps = (component? first).toList
      ∧ ((Path.mk (if first == "" then "/" else first)).isAbsolute = true ↔ first = "") := by
  by_cases hf : first = ""
  · subst hf
    exact ⟨rfl, fun _ => rfl, fun _ => rfl⟩
  · obtain ⟨hsteps, habs⟩ := steps_of_parts (parts_of_not_mem h)
    rw [if_neg fun e => hf (beq_iff_eq.1 e)]
    refine ⟨hsteps.trans (List.append_nil _), ?_⟩
    exact ⟨fun e => (habs.1 e).1, fun e => absurd e hf⟩

/-- **The parent of a path has all its steps but the last, from the same origin.** -/
theorem parent_spec {p q : Path} (h : p.parent = some q) :
    q.steps = p.steps.dropLast ∧ q.isAbsolute = p.isAbsolute := by
  obtain ⟨first, rest, hp⟩ := List.exists_cons_of_ne_nil (parts_ne_nil p)
  have hslash : ∀ part ∈ first :: rest, '/' ∉ part.toList := by
    rw [← hp]
    exact fun part hm => slash_not_mem_of_mem_parts hm
  obtain ⟨hsteps, habs⟩ := steps_of_parts hp
  have hrest : withoutVacuousEnd rest ≠ [] → rest ≠ [] := by
    intro hv e
    rw [e] at hv
    exact hv rfl
  have hlast : withoutVacuousEnd rest ≠ [] → p.steps.dropLast = (component? first).toList ++
      (withoutVacuousEnd (withoutVacuousEnd rest).dropLast).filterMap component? := by
    intro hv
    obtain ⟨hdrop, hne⟩ := filterMap_dropLast hv
    rw [hsteps, List.dropLast_append_of_ne_nil hne, filterMap_withoutVacuousEnd, hdrop]
  rw [Bool.eq_iff_iff, habs]
  rcases parent_cases hp h with ⟨hv, hf, rfl⟩ | ⟨hv, hk, rfl⟩ | ⟨hv, hk, rfl⟩
  · -- only the first part may stand for a step
    have hnone : rest.filterMap component? = [] := by
      rw [← filterMap_withoutVacuousEnd, hv]
      rfl
    rw [hsteps, hnone]
    refine ⟨?_, fun e => absurd e (by decide), fun e => absurd e.1 hf⟩
    cases component? first <;> rfl
  · obtain ⟨hfirst, hroot⟩ := steps_first (hslash first List.mem_cons_self)
    rw [hlast hv, hk, hfirst, hroot]
    exact ⟨(List.append_nil _).symm, fun e => ⟨e, hrest hv⟩, fun e => e.1⟩
  · have hparts := parts_joined (List.cons_ne_nil first
        (withoutVacuousEnd (withoutVacuousEnd rest).dropLast)) (by
      intro part hm
      rcases List.mem_cons.1 hm with rfl | hm
      · exact hslash part List.mem_cons_self
      · refine hslash part (List.mem_cons_of_mem _ (mem_of_mem_withoutVacuousEnd ?_))
        exact List.dropLast_subset _ (mem_of_mem_withoutVacuousEnd hm))
    obtain ⟨hjoined, hroot⟩ := steps_of_parts hparts
    rw [hlast hv, hjoined, hroot]
    exact ⟨rfl, fun e => ⟨e.1, hrest hv⟩, fun e => ⟨e.1, hk⟩⟩

theorem ancestorsWithin_spec : ∀ {n : Nat} {p q : Path}, q ∈ ancestorsWithin n p →
    q.steps <+: p.steps ∧ q.isAbsolute = p.isAbsolute
  | 0, p, q, h => by
      rw [ancestorsWithin, List.mem_singleton] at h
      rw [h]
      exact ⟨List.prefix_rfl, rfl⟩
  | n + 1, p, q, h => by
      rw [ancestorsWithin] at h
      rcases List.mem_cons.1 h with rfl | h
      · exact ⟨List.prefix_rfl, rfl⟩
      · cases hp : p.parent with
        | none => rw [hp] at h; exact absurd h List.not_mem_nil
        | some above =>
          rw [hp] at h
          obtain ⟨hs, ha⟩ := ancestorsWithin_spec h
          obtain ⟨hps, hpa⟩ := parent_spec hp
          exact ⟨hs.trans (hps ▸ List.dropLast_prefix p.steps), ha.trans hpa⟩

/-- **The ancestors of a path have its first steps, from the same origin.** -/
theorem ancestors_spec {p q : Path} (h : q ∈ p.ancestors) :
    q.steps <+: p.steps ∧ q.isAbsolute = p.isAbsolute :=
  ancestorsWithin_spec h

/-- An ancestor has the first steps of every one that is listed before it. -/
theorem pairwise_ancestors (p : Path) :
    p.ancestors.Pairwise fun q above =>
      above.steps <+: q.steps ∧ above.isAbsolute = q.isAbsolute := by
  unfold ancestors
  generalize p.components.length = n
  induction n generalizing p with
  | zero => exact List.pairwise_singleton _ _
  | succ n ih =>
    rw [ancestorsWithin]
    cases hp : p.parent with
    | none => exact List.pairwise_singleton _ _
    | some above =>
      obtain ⟨hps, hpa⟩ := parent_spec hp
      refine List.pairwise_cons.2 ⟨fun q hq => ?_, ih above⟩
      obtain ⟨hs, ha⟩ := ancestorsWithin_spec hq
      exact ⟨hs.trans (hps ▸ List.dropLast_prefix p.steps), ha.trans hpa⟩

/-! ## 5. Paths that never lead up -/

theorem foldl_foldStep_names (place : Location) : ∀ names : List String,
    (names.map Component.name).foldl foldStep place = place ++ names
  | [] => (List.append_nil place).symm
  | name :: names => by
      rw [List.map_cons, List.foldl_cons, foldl_foldStep_names (foldStep place (.name name)) names,
        foldStep, List.append_assoc]
      rfl

/-- A path without `..` is a list of names from its origin. -/
theorem steps_eq_names {p : Path} (h : Component.up ∉ p.steps) :
    ∃ names : List String, p.steps = names.map Component.name := by
  unfold steps at h ⊢
  generalize p.parts = parts at h ⊢
  induction parts with
  | nil => exact ⟨[], rfl⟩
  | cons part parts ih =>
    rcases component?_cases part with ⟨_, hc⟩ | ⟨_, hc⟩ | ⟨_, _, hc⟩
    · rw [List.filterMap_cons_none hc] at h ⊢
      exact ih h
    · rw [List.filterMap_cons_some hc] at h
      exact absurd List.mem_cons_self h
    · rw [List.filterMap_cons_some hc] at h ⊢
      obtain ⟨names, hn⟩ := ih fun hm => h (List.mem_cons_of_mem _ hm)
      exact ⟨part :: names, by rw [hn, List.map_cons]⟩

/-- A path of names folds to them, taken from its origin. -/
theorem eq_of_fold?_names {p : Path} {names : List String} (hn : p.steps = names.map Component.name)
    {working place : Location} (h : p.fold? working = some place) :
    p.origin working ++ names = place := by
  rw [fold?_eq (text_ne_of_fold? h), hn, foldl_foldStep_names] at h
  exact Option.some.inj h

theorem up_not_mem_steps {p : Path} (h : Component.up ∉ p.components) :
    Component.up ∉ p.steps := by
  intro hm
  refine h ?_
  unfold components
  split
  · exact List.mem_cons_of_mem _ hm
  · split
    · exact List.mem_cons_of_mem _ hm
    · exact hm

end MasterSchema.Path
