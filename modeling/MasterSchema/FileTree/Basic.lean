import MasterSchema.Path.Fold
import MasterSchema.Text

/-!
# File trees

A file tree holds directories and files by location. The root directory is always there and is not
listed. Every listed entry has a proper file name and stands in a directory of the tree, and no
location is listed twice; the operations keep that.

* `get?` is what stands at a location;
* `add` puts a new entry into a directory, `overwrite` changes the content of a file;
* `remove` takes a location away with all below it, `removeBelow` only what is below it.
-/

namespace MasterSchema

/-! ## 1. Entries -/

inductive Entry where
  | directory
  | file (content : ByteArray)

instance : DecidableEq Entry
  | .directory, .directory => .isTrue rfl
  | .file a, .file b =>
    match ByteArray.instDecidableEq a b with
    | .isTrue h => .isTrue (congrArg _ h)
    | .isFalse h => .isFalse fun e => h (Entry.file.inj e)
  | .directory, .file _ => .isFalse nofun
  | .file _, .directory => .isFalse nofun

/-- How many bytes a file name may have. -/
def maxNameBytes : Nat := 255

/-- Whether a name can be that of a file or directory. -/
def isFileName (name : String) : Bool :=
  name != "" && name != "." && name != ".."
    && name.toList.all (fun c => c != '/' && c != '\x00')
    && decide (name.utf8ByteSize ≤ maxNameBytes)

/-- A location is placed among entries if its last name is a file name and what stands before is
    the root or a directory. -/
def Placed (entries : List (Location × Entry)) (place : Location) : Prop :=
  ∃ dir name, place = dir ++ [name] ∧ isFileName name = true
    ∧ (dir = [] ∨ (dir, Entry.directory) ∈ entries)

structure FileTree where
  entries : List (Location × Entry)
  distinct : (entries.map (·.1)).Nodup
  placed : ∀ x ∈ entries, Placed entries x.1

namespace FileTree

/-- The tree with nothing below the root. -/
def empty : FileTree := ⟨[], List.nodup_nil, fun _ h => absurd h (List.not_mem_nil)⟩

/-- The entry at a location. -/
def get? (t : FileTree) (place : Location) : Option Entry :=
  if place = [] then some .directory
  else (t.entries.find? fun x => x.1 == place).map (·.2)

theorem mem_of_get? {t : FileTree} {place : Location} {e : Entry} (hne : place ≠ [])
    (h : t.get? place = some e) : (place, e) ∈ t.entries := by
  rw [get?, if_neg hne, Option.map_eq_some_iff] at h
  obtain ⟨x, hx, rfl⟩ := h
  have hm := List.mem_of_find?_eq_some hx
  have hp := List.find?_some hx
  rw [← eq_of_beq hp]
  exact hm

theorem get?_eq_none {t : FileTree} {place : Location} (h : t.get? place = none) :
    place ∉ t.entries.map (·.1) := by
  intro hm
  obtain ⟨x, hx, rfl⟩ := List.mem_map.1 hm
  rw [get?] at h
  split at h
  · exact absurd h (by simp)
  · rw [Option.map_eq_none_iff, List.find?_eq_none] at h
    exact absurd (beq_self_eq_true x.1) (h x hx)

/-! ## 2. Adding and overwriting -/

/-- A directory has room for a name if the name is a file name and not taken. -/
def HasRoom (t : FileTree) (dir : Location) (name : String) : Prop :=
  isFileName name = true ∧ t.get? dir = some .directory ∧ t.get? (dir ++ [name]) = none

instance (t : FileTree) (dir : Location) (name : String) : Decidable (t.HasRoom dir name) :=
  inferInstanceAs (Decidable (_ ∧ _ ∧ _))

theorem placed_mono {l k : List (Location × Entry)} (h : ∀ x ∈ l, x ∈ k) {place : Location}
    (hp : Placed l place) : Placed k place := by
  obtain ⟨dir, name, he, hn, hd⟩ := hp
  exact ⟨dir, name, he, hn, hd.imp_right fun hm => h _ hm⟩

/-- A new entry of a directory. -/
def add (t : FileTree) (dir : Location) (name : String) (e : Entry) (h : t.HasRoom dir name) :
    FileTree where
  entries := t.entries ++ [(dir ++ [name], e)]
  distinct := by
    rw [List.map_append, List.nodup_append]
    refine ⟨t.distinct, by simp, ?_⟩
    intro a ha b hb hab
    rw [List.map_cons, List.map_nil, List.mem_singleton] at hb
    rw [hab, hb] at ha
    exact get?_eq_none h.2.2 ha
  placed := by
    intro x hx
    rw [List.mem_append, List.mem_singleton] at hx
    rcases hx with hx | rfl
    · exact placed_mono (fun y hy => List.mem_append_left _ hy) (t.placed x hx)
    · refine ⟨dir, name, rfl, h.1, ?_⟩
      by_cases hd : dir = []
      · exact Or.inl hd
      · exact Or.inr (List.mem_append_left _ (mem_of_get? hd h.2.1))

/-- An entry with another content, if it is the file at a location. -/
def overwritten (place : Location) (content : ByteArray) : Location × Entry → Location × Entry
  | (other, .directory) => (other, .directory)
  | (other, .file old) => (other, .file (if other = place then content else old))

theorem overwritten_fst (place : Location) (content : ByteArray) (x : Location × Entry) :
    (overwritten place content x).1 = x.1 := by
  obtain ⟨other, e⟩ := x
  cases e <;> rfl

/-- Another content for the file at a location; directories stay as they are. -/
def overwrite (t : FileTree) (place : Location) (content : ByteArray) : FileTree where
  entries := t.entries.map (overwritten place content)
  distinct := by
    rw [List.map_map]
    have : (fun x : Location × Entry => x.1) ∘ overwritten place content = (·.1) :=
      funext (overwritten_fst place content)
    rw [this]
    exact t.distinct
  placed := by
    intro x hx
    obtain ⟨y, hy, rfl⟩ := List.mem_map.1 hx
    rw [overwritten_fst]
    obtain ⟨dir, name, he, hn, hd⟩ := t.placed y hy
    exact ⟨dir, name, he, hn, hd.imp_right fun hm => List.mem_map.2 ⟨_, hm, rfl⟩⟩

/-! ## 3. Removing -/

/-- The tree with the entries alone whose locations are wanted. With a location the directory it
    stands in is wanted too. -/
def keep (t : FileTree) (wanted : Location → Bool)
    (h : ∀ dir name, wanted (dir ++ [name]) = true → dir = [] ∨ wanted dir = true) :
    FileTree where
  entries := t.entries.filter fun x => wanted x.1
  distinct := t.distinct.sublist (List.filter_sublist.map _)
  placed := by
    intro x hx
    obtain ⟨hx, ht⟩ := List.mem_filter.1 hx
    obtain ⟨dir, name, he, hn, hd⟩ := t.placed x hx
    refine ⟨dir, name, he, hn, ?_⟩
    rcases hd with hd | hd
    · exact Or.inl hd
    · refine (h dir name (he ▸ ht)).imp_right fun hk => List.mem_filter.2 ⟨hd, hk⟩

/-- Without a location and all below it. -/
def remove (t : FileTree) (place : Location) : FileTree :=
  t.keep (fun other => !place.isPrefixOf other) (by
    intro dir name h
    refine Or.inr ?_
    simp only [Bool.not_eq_true', ← Bool.not_eq_true, List.isPrefixOf_iff_prefix] at h ⊢
    exact fun hp => h (hp.trans (List.prefix_append dir [name])))

/-- Without all that is below a location. -/
def removeBelow (t : FileTree) (place : Location) : FileTree :=
  t.keep (fun other => !place.isPrefixOf other || other == place) (by
    intro dir name h
    refine Or.inr ?_
    simp only [Bool.or_eq_true, Bool.not_eq_true', ← Bool.not_eq_true, List.isPrefixOf_iff_prefix,
      beq_iff_eq] at h ⊢
    rcases h with h | rfl
    · exact Or.inl fun hp => h (hp.trans (List.prefix_append dir [name]))
    · refine Or.inl fun hp => ?_
      have hl := hp.length_le
      rw [List.length_append] at hl
      exact absurd hl (by simp))

/-! ## 4. What is below -/

/-- Whether something is below a location. -/
def hasBelow (t : FileTree) (place : Location) : Bool :=
  t.entries.any fun x => place.isPrefixOf x.1 && x.1 != place

/-- All that is below a location, relative to it, in the order of the names on the way. -/
def below (t : FileTree) (place : Location) : List (Location × Entry) :=
  ((t.entries.filter fun x => place.isPrefixOf x.1 && x.1 != place).map
      fun x => (x.1.drop place.length, x.2)).mergeSort
    fun a b => Text.namesLe a.1 b.1

end FileTree

end MasterSchema
