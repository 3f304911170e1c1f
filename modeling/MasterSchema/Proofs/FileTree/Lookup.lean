import Mathlib.Data.List.Induction
import Mathlib.Data.List.Nodup
import MasterSchema.FileTree.Basic

/-!
# What the operations on file trees do to a location

A file tree is read through `get?` alone; nothing here speaks of the order of the entries.

* every operation has one equation that says what stands at any location afterwards
  (`get?_add`, `get?_overwrite`, `get?_keep`, `get?_remove`, `get?_removeBelow`);
* whatever stands above an entry is a directory (`get?_above`), and the names on the way to it
  are file names (`isFileName_of_get?`).
-/

namespace MasterSchema.FileTree

/-! ## 1. Entries and lookup -/

@[simp] theorem get?_nil (t : FileTree) : t.get? [] = some .directory := rfl

/-- No entry is listed at the root. -/
theorem ne_nil_of_mem {t : FileTree} {place : Location} {e : Entry}
    (h : (place, e) ∈ t.entries) : place ≠ [] := by
  obtain ⟨dir, name, he, _, _⟩ := t.placed _ h
  intro hnil
  rw [hnil] at he
  exact List.append_ne_nil_of_right_ne_nil dir (List.cons_ne_nil name []) he.symm

theorem get?_of_mem {t : FileTree} {place : Location} {e : Entry}
    (h : (place, e) ∈ t.entries) : t.get? place = some e := by
  cases hg : t.get? place with
  | none => exact absurd (List.mem_map_of_mem h) (get?_eq_none hg)
  | some other =>
    have hm := mem_of_get? (ne_nil_of_mem h) hg
    have he := List.inj_on_of_nodup_map t.distinct hm h rfl
    rw [(Prod.mk.inj he).2]

theorem get?_eq_some_iff {t : FileTree} {place : Location} {e : Entry} (hne : place ≠ []) :
    t.get? place = some e ↔ (place, e) ∈ t.entries :=
  ⟨mem_of_get? hne, get?_of_mem⟩

/-! ## 2. What stands above an entry -/

theorem get?_dropLast {t : FileTree} {dir : Location} {name : String} {e : Entry}
    (h : t.get? (dir ++ [name]) = some e) :
    isFileName name = true ∧ t.get? dir = some .directory := by
  have hm := mem_of_get? (List.append_ne_nil_of_right_ne_nil dir (List.cons_ne_nil name [])) h
  obtain ⟨above, last, he, hn, hd⟩ := t.placed _ hm
  obtain ⟨rfl, hl⟩ := List.append_inj' he rfl
  obtain rfl : name = last := List.singleton_inj.1 hl
  refine ⟨hn, ?_⟩
  rcases hd with rfl | hd
  · rfl
  · exact get?_of_mem hd

/-- **Above an entry stand directories.** -/
theorem get?_above {t : FileTree} {above : Location} :
    ∀ {names : List String} {e : Entry}, names ≠ [] → t.get? (above ++ names) = some e →
      t.get? above = some .directory := by
  intro names
  induction names using List.reverseRecOn with
  | nil => intro e hne _; exact absurd rfl hne
  | append_singleton names name ih =>
    intro e _ h
    rw [← List.append_assoc] at h
    have hd := (get?_dropLast h).2
    by_cases hn : names = []
    · rw [hn, List.append_nil] at hd
      exact hd
    · exact ih hn hd

/-- Where nothing stands, nothing stands below. -/
theorem get?_eq_none_below {t : FileTree} {above place : Location} (hp : above <+: place)
    (h : t.get? above = none) : t.get? place = none := by
  obtain ⟨names, rfl⟩ := hp
  by_cases hn : names = []
  · rw [hn, List.append_nil]; exact h
  · cases hg : t.get? (above ++ names) with
    | none => rfl
    | some e => rw [get?_above hn hg] at h; cases h

/-- The names on the way to an entry are file names. -/
theorem isFileName_of_get? {t : FileTree} {above : Location} :
    ∀ {names : List String} {e : Entry}, t.get? (above ++ names) = some e →
      ∀ name ∈ names, isFileName name = true := by
  intro names
  induction names using List.reverseRecOn with
  | nil => intro e _ name hm; exact absurd hm List.not_mem_nil
  | append_singleton names last ih =>
    intro e h name hm
    rw [← List.append_assoc] at h
    obtain ⟨hl, hd⟩ := get?_dropLast h
    rcases List.mem_append.1 hm with hm | hm
    · exact ih hd name hm
    · rw [List.mem_singleton.1 hm]; exact hl

/-! ## 3. The operations -/

/-- What stands somewhere after an entry has been added. -/
theorem get?_add {t : FileTree} {dir : Location} {name : String} {e : Entry}
    (h : t.HasRoom dir name) (place : Location) :
    (t.add dir name e h).get? place = if place = dir ++ [name] then some e else t.get? place := by
  by_cases hp : place = dir ++ [name]
  · rw [if_pos hp, hp]
    exact get?_of_mem (List.mem_append_right _ List.mem_cons_self)
  · rw [if_neg hp]
    by_cases hnil : place = []
    · rw [hnil]; rfl
    · refine Option.ext fun other => ?_
      rw [get?_eq_some_iff hnil, get?_eq_some_iff hnil, add, List.mem_append, List.mem_singleton]
      exact or_iff_left fun heq => hp (Prod.mk.inj heq).1

theorem get?_overwrite_of_ne {t : FileTree} {place other : Location} {content : ByteArray}
    (hne : other ≠ place) : (t.overwrite place content).get? other = t.get? other := by
  by_cases hnil : other = []
  · rw [hnil]; rfl
  · refine Option.ext fun e => ?_
    rw [get?_eq_some_iff hnil, get?_eq_some_iff hnil, overwrite, List.mem_map]
    constructor
    · intro hsome
      obtain ⟨⟨x, old⟩, hm, hx⟩ := hsome
      obtain rfl : x = other :=
        (overwritten_fst place content (x, old)).symm.trans (congrArg Prod.fst hx)
      cases old with
      | directory => rw [← hx]; exact hm
      | file c => rw [← hx, overwritten, if_neg hne]; exact hm
    · intro hm
      refine ⟨(other, e), hm, ?_⟩
      cases e with
      | directory => rfl
      | file c => rw [overwritten, if_neg hne]

/-- A file that is overwritten has the new content. -/
theorem get?_overwrite_self {t : FileTree} {place : Location} {old content : ByteArray}
    (h : t.get? place = some (.file old)) :
    (t.overwrite place content).get? place = some (.file content) := by
  have hne : place ≠ [] := by rintro rfl; cases h
  refine get?_of_mem (List.mem_map.2 ⟨(place, .file old), mem_of_get? hne h, ?_⟩)
  rw [overwritten, if_pos rfl]

theorem get?_keep {t : FileTree} {wanted : Location → Bool}
    (h : ∀ dir name, wanted (dir ++ [name]) = true → dir = [] ∨ wanted dir = true)
    {place : Location} (hne : place ≠ []) :
    (t.keep wanted h).get? place = if wanted place then t.get? place else none := by
  refine Option.ext fun e => ?_
  rw [get?_eq_some_iff hne, keep, List.mem_filter]
  by_cases hw : wanted place = true
  · rw [if_pos hw, get?_eq_some_iff hne]
    exact and_iff_left hw
  · rw [if_neg hw]
    exact ⟨fun hm => absurd hm.2 hw, fun hm => nomatch hm⟩

/-- **Removing a location takes away what is at it or below it, and nothing else.** -/
theorem get?_remove {t : FileTree} {place : Location} (hne : place ≠ []) (other : Location) :
    (t.remove place).get? other = if place <+: other then none else t.get? other := by
  by_cases hnil : other = []
  · rw [hnil, if_neg fun hp => hne (List.prefix_nil.1 hp)]; rfl
  · rw [remove, get?_keep _ hnil]
    by_cases hp : place <+: other
    · rw [if_pos hp, List.isPrefixOf_iff_prefix.2 hp]; rfl
    · rw [if_neg hp, Bool.eq_false_iff.2 fun hb => hp (List.isPrefixOf_iff_prefix.1 hb)]; rfl

theorem get?_removeBelow {t : FileTree} {place : Location} (other : Location) :
    (t.removeBelow place).get? other =
      if place <+: other ∧ other ≠ place then none else t.get? other := by
  by_cases hnil : other = []
  · rw [hnil, if_neg fun ⟨hp, hn⟩ => hn (List.prefix_nil.1 hp).symm]; rfl
  · rw [removeBelow, get?_keep _ hnil]
    by_cases hp : place <+: other ∧ other ≠ place
    · rw [if_pos hp, List.isPrefixOf_iff_prefix.2 hp.1, beq_false_of_ne hp.2]; rfl
    · rw [if_neg hp, if_pos]
      rw [Bool.or_eq_true, Bool.not_eq_true', ← Bool.not_eq_true, List.isPrefixOf_iff_prefix,
        beq_iff_eq]
      by_cases hpre : place <+: other
      · exact Or.inr (Classical.byContradiction fun hn => hp ⟨hpre, hn⟩)
      · exact Or.inl hpre

/-! ## 4. What is below -/

/-- What is listed below a location is what stands below it. -/
theorem mem_below {t : FileTree} {place names : Location} {e : Entry} :
    (names, e) ∈ t.below place ↔ names ≠ [] ∧ t.get? (place ++ names) = some e := by
  have hne : place ++ names ≠ place ↔ names ≠ [] := not_congr List.append_right_eq_self
  rw [below, List.mem_mergeSort, List.mem_map]
  constructor
  · intro hsome
    obtain ⟨⟨other, e'⟩, hx, heq⟩ := hsome
    obtain ⟨hm, hb⟩ := List.mem_filter.1 hx
    obtain ⟨hpre, hother⟩ := Bool.and_eq_true_iff.1 hb
    obtain ⟨rest, rfl⟩ := List.isPrefixOf_iff_prefix.1 hpre
    obtain ⟨hnames, rfl⟩ := Prod.mk.inj heq
    obtain rfl : rest = names := (List.drop_left' rfl).symm.trans hnames
    exact ⟨hne.1 (bne_iff_ne.1 hother), get?_of_mem hm⟩
  · intro hsome
    obtain ⟨hnames, hg⟩ := hsome
    have hnil : place ++ names ≠ [] := List.append_ne_nil_of_right_ne_nil place hnames
    refine ⟨(place ++ names, e), List.mem_filter.2 ⟨mem_of_get? hnil hg, ?_⟩, ?_⟩
    · exact Bool.and_eq_true_iff.2
        ⟨List.isPrefixOf_iff_prefix.2 (List.prefix_append place names), bne_iff_ne.2 (hne.2 hnames)⟩
    · rw [List.drop_left' rfl]

end MasterSchema.FileTree
