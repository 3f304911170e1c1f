import Mathlib.Data.List.Lex
import Mathlib.Data.String.Basic
import MasterSchema.FileTree.Traversal
import MasterSchema.Proofs.FileTree.Lookup
import MasterSchema.Proofs.Text.Order

/-!
# What a traversal goes through

A traversal goes through all that stands below a directory (`mem_traversal`), each of it once and in
the order of the names on the way (`pairwise_traversal`). So trees with the same entries are gone
through in the same way, in whatever order they list them (`traversal_congr`).
-/

namespace MasterSchema.FileTree

variable {t : FileTree} {dir : Location} {name : String} {e : Entry}

/-! ## 1. One directory -/

theorem nameIn?_eq_some {place : Location} :
    nameIn? dir place = some name ↔ place = dir ++ [name] := by
  unfold nameIn?
  constructor
  · intro h
    split at h
    · rename_i hdir
      obtain ⟨front, rfl⟩ := List.getLast?_eq_some_iff.1 h
      rw [← hdir, List.dropLast_concat]
    · cases h
  · rintro rfl
    rw [List.dropLast_concat, if_pos rfl, List.getLast?_concat]

theorem mem_listing : (name, e) ∈ t.listing dir ↔ t.get? (dir ++ [name]) = some e := by
  have hne : dir ++ [name] ≠ [] := List.append_ne_nil_of_right_ne_nil dir (List.cons_ne_nil name [])
  rw [get?_eq_some_iff hne, listing, List.mem_filterMap]
  constructor
  · intro hsome
    obtain ⟨⟨place, other⟩, hm, h⟩ := hsome
    obtain ⟨found, hfound, heq⟩ := Option.map_eq_some_iff.1 h
    obtain ⟨rfl, rfl⟩ := Prod.mk.inj heq
    rwa [← nameIn?_eq_some.1 hfound]
  · intro hm
    exact ⟨_, hm, Option.map_eq_some_iff.2 ⟨name, nameIn?_eq_some.2 rfl, rfl⟩⟩

/-- A directory holds no name twice. -/
theorem nodup_listing (t : FileTree) (dir : Location) : ((t.listing dir).map (·.1)).Nodup := by
  have hnames : (t.listing dir).map (·.1) = (t.entries.map (·.1)).filterMap (nameIn? dir) := by
    simp [listing, List.map_filterMap, List.filterMap_map, Function.comp_def]
  rw [hnames]
  refine t.distinct.filterMap fun a b name ha hb => ?_
  rw [nameIn?_eq_some.1 ha, nameIn?_eq_some.1 hb]

theorem mem_inOrder : (name, e) ∈ t.inOrder dir ↔ t.get? (dir ++ [name]) = some e := by
  rw [inOrder, List.mem_mergeSort, mem_listing]

/-- The names of a directory are strictly increasing. -/
theorem pairwise_inOrder (t : FileTree) (dir : Location) :
    (t.inOrder dir).Pairwise fun a b => a.1 < b.1 :=
  Text.pairwise_lt_mergeSort (fun _ _ => decide_eq_true_iff) (nodup_listing t dir)

/-! ## 2. All directories -/

theorem mem_withBelow {below : Location → List (Location × Entry)} {names : Location}
    {other : Entry} : (names, e) ∈ withBelow below dir (name, other) ↔
      (names = [name] ∧ e = other) ∨ ∃ rest, names = name :: rest ∧ other = .directory
        ∧ (rest, e) ∈ below (dir ++ [name]) := by
  cases other with
  | file content => simp [withBelow]
  | directory =>
    simp only [withBelow, List.mem_cons, List.mem_map, Prod.mk.injEq, Prod.exists, true_and]
    refine or_congr_right ⟨?_, ?_⟩
    · intro hsome
      obtain ⟨rest, found, hm, rfl, rfl⟩ := hsome
      exact ⟨rest, rfl, hm⟩
    · intro hsome
      obtain ⟨rest, rfl, hm⟩ := hsome
      exact ⟨rest, e, hm, rfl, rfl⟩

theorem mem_traverseWithin : ∀ {n : Nat} {dir names : Location},
    (names, e) ∈ t.traverseWithin n dir ↔
      names ≠ [] ∧ names.length ≤ n ∧ t.get? (dir ++ names) = some e
  | 0, dir, names => by
      refine iff_of_false List.not_mem_nil fun h => h.1 ?_
      exact List.eq_nil_of_length_eq_zero (Nat.le_zero.1 h.2.1)
  | n + 1, dir, [] => by
      refine iff_of_false (fun hm => ?_) fun h => h.1 rfl
      obtain ⟨⟨name, other⟩, _, hm⟩ := List.mem_flatMap.1 hm
      rcases mem_withBelow.1 hm with h | ⟨rest, h, _⟩
      · cases h.1
      · cases h
  | n + 1, dir, name :: rest => by
      have hplace : dir ++ name :: rest = dir ++ [name] ++ rest := by simp
      rw [traverseWithin, List.mem_flatMap]
      constructor
      · intro hsome
        obtain ⟨⟨found, other⟩, hfound, hm⟩ := hsome
        rw [mem_inOrder] at hfound
        rcases mem_withBelow.1 hm with ⟨heq, rfl⟩ | ⟨below, heq, rfl, hbelow⟩
        · obtain ⟨rfl, rfl⟩ := List.cons.inj heq
          exact ⟨List.cons_ne_nil _ _, Nat.succ_le_succ (Nat.zero_le n), hfound⟩
        · obtain ⟨rfl, rfl⟩ := List.cons.inj heq
          obtain ⟨_, hlength, hget⟩ := mem_traverseWithin.1 hbelow
          exact ⟨List.cons_ne_nil _ _, Nat.succ_le_succ hlength, hplace ▸ hget⟩
      · intro h
        obtain ⟨_, hlength, hget⟩ := h
        by_cases hrest : rest = []
        · subst hrest
          exact ⟨(name, e), mem_inOrder.2 hget, mem_withBelow.2 (Or.inl ⟨rfl, rfl⟩)⟩
        · rw [hplace] at hget
          refine ⟨(name, .directory), mem_inOrder.2 (get?_above hrest hget), ?_⟩
          refine mem_withBelow.2 (Or.inr ⟨rest, rfl, rfl, ?_⟩)
          exact mem_traverseWithin.2 ⟨hrest, Nat.le_of_succ_le_succ hlength, hget⟩

/-- No location is longer than the tree is deep. -/
theorem length_le_depth {place : Location} (hne : place ≠ []) (h : t.get? place = some e) :
    place.length ≤ t.depth :=
  List.le_max?_getD_of_mem (List.mem_map_of_mem (f := fun x => x.1.length) (mem_of_get? hne h))

/-- **A traversal goes through all that stands below the directory, and nothing else.** -/
theorem mem_traversal {names : Location} :
    (names, e) ∈ t.traversal dir ↔ names ≠ [] ∧ t.get? (dir ++ names) = some e := by
  rw [traversal, mem_traverseWithin]
  constructor
  · intro h
    exact ⟨h.1, h.2.2⟩
  · intro h
    obtain ⟨hne, hget⟩ := h
    have hlength := length_le_depth (List.append_ne_nil_of_right_ne_nil dir hne) hget
    rw [List.length_append] at hlength
    exact ⟨hne, by omega, hget⟩

/-! ## 3. The order -/

theorem pairwise_traverseWithin : ∀ (n : Nat) (dir : Location),
    (t.traverseWithin n dir).Pairwise fun x y => x.1 < y.1
  | 0, _ => List.Pairwise.nil
  | n + 1, dir => by
      rw [traverseWithin, List.pairwise_flatMap]
      constructor
      · rintro ⟨name, other⟩ _
        cases other with
        | file content => exact List.pairwise_singleton _ _
        | directory =>
          have ih := pairwise_traverseWithin n (dir ++ [name])
          refine List.pairwise_cons.2 ⟨?_, List.pairwise_map.2 (ih.imp ?_)⟩
          · intro x hx
            obtain ⟨⟨rest, found⟩, hm, rfl⟩ := List.mem_map.1 hx
            obtain ⟨next, more, rfl⟩ := List.exists_cons_of_ne_nil (mem_traverseWithin.1 hm).1
            exact List.cons_lt_cons_self.2 (List.nil_lt_cons next more)
          · intro x y hxy
            exact List.cons_lt_cons_self.2 hxy
      · -- what stands below different names of the directory differs in the first name
        have hfirst : ∀ {a : String × Entry} {x : Location × Entry},
            x ∈ withBelow (t.traverseWithin n) dir a → ∃ rest, x.1 = a.1 :: rest := by
          intro a x hx
          rcases mem_withBelow.1 hx with ⟨h, _⟩ | ⟨rest, h, _⟩
          · exact ⟨[], h⟩
          · exact ⟨rest, h⟩
        refine (pairwise_inOrder t dir).imp fun hab x hx y hy => ?_
        obtain ⟨rest, hx⟩ := hfirst hx
        obtain ⟨rest', hy⟩ := hfirst hy
        rw [hx, hy]
        exact List.cons_lt_cons_iff.2 (Or.inl hab)

/-- **A traversal goes through the locations in the order of their names.** -/
theorem pairwise_traversal (t : FileTree) (dir : Location) :
    (t.traversal dir).Pairwise fun x y => x.1 < y.1 :=
  pairwise_traverseWithin t.depth dir

/-- Lists of what stands below a directory are the same if they have the same members and are both
in order. -/
theorem eq_of_mem_iff {l k : List (Location × Entry)} (hl : l.Pairwise fun x y => x.1 < y.1)
    (hk : k.Pairwise fun x y => x.1 < y.1) (h : ∀ x, x ∈ l ↔ x ∈ k) : l = k := by
  have hnodup : ∀ {m : List (Location × Entry)}, (m.Pairwise fun x y => x.1 < y.1) → m.Nodup := by
    intro m hm
    refine hm.imp ?_
    rintro x _ hlt rfl
    exact lt_irrefl _ hlt
  refine List.Perm.eq_of_pairwise ?_ hl hk
    ((List.perm_ext_iff_of_nodup (hnodup hl) (hnodup hk)).2 h)
  intro a b _ _ hab hba
  exact absurd (hab.trans hba) (lt_irrefl _)

/-- **Trees with the same entries are gone through in the same way**, in whatever order they list
them. -/
theorem traversal_congr {t t' : FileTree} (h : ∀ place, t.get? place = t'.get? place)
    (dir : Location) : t.traversal dir = t'.traversal dir := by
  refine eq_of_mem_iff (pairwise_traversal t dir) (pairwise_traversal t' dir) ?_
  rintro ⟨names, e⟩
  rw [mem_traversal, mem_traversal, h]

/-- What is listed below a location is in the order of the names, each name once. -/
theorem pairwise_below (t : FileTree) (dir : Location) :
    (t.below dir).Pairwise fun x y => x.1 < y.1 := by
  have hle : ∀ x y : Location × Entry, Text.namesLe x.1 y.1 = true ↔ x.1 ≤ y.1 :=
    fun _ _ => Text.namesLe_iff
  refine Text.pairwise_lt_mergeSort hle ?_
  have hplace : ∀ {x : Location × Entry}, (dir.isPrefixOf x.1 && x.1 != dir) = true →
      dir ++ x.1.drop dir.length = x.1 := fun h =>
    List.prefix_iff_eq_append.1 (List.isPrefixOf_iff_prefix.1 (Bool.and_eq_true_iff.1 h).1)
  rw [List.map_map]
  refine List.Nodup.map_on ?_ ((List.Nodup.of_map _ t.distinct).filter _)
  intro x hx y hy hxy
  obtain ⟨hx, hbelow⟩ := List.mem_filter.1 hx
  obtain ⟨hy, hbelow'⟩ := List.mem_filter.1 hy
  refine List.inj_on_of_nodup_map t.distinct hx hy ?_
  rw [← hplace hbelow, ← hplace hbelow']
  exact congrArg (dir ++ ·) hxy

/-- A traversal goes through what is listed below the directory. -/
theorem traversal_eq_below (t : FileTree) (dir : Location) : t.traversal dir = t.below dir := by
  refine eq_of_mem_iff (pairwise_traversal t dir) (pairwise_below t dir) ?_
  rintro ⟨names, e⟩
  rw [mem_traversal, mem_below]

end MasterSchema.FileTree
