import Mathlib.Data.List.Lex
import Mathlib.Data.String.Basic
import MasterSchema.Text

/-!
# The order of names and of lists of names

* What is sorted by a key that tells it apart is strictly increasing (`pairwise_lt_mergeSort`).
* Lists of names are in the lexicographic order (`namesLe_iff`).
* The bytes of a character's UTF-8 form are its number cut into digits, each byte with a mark of how
  many there are. The marks grow with the number, and of two numbers with equally many digits the
  greater has the greater digit where they first differ (`digits_lt`). So names are in the order of
  their bytes (`bytes_lt`).
-/

namespace MasterSchema.Text

/-! ## 1. Sorting by a key -/

section Sorting

variable {α β : Type} [LinearOrder β] {key : α → β} {le : α → α → Bool}
  (hle : ∀ a b, le a b = true ↔ key a ≤ key b)

include hle

theorem pairwise_le_mergeSort (l : List α) :
    (l.mergeSort le).Pairwise fun a b => key a ≤ key b := by
  refine (List.pairwise_mergeSort ?_ ?_ l).imp (hle _ _).1
  · intro a b c hab hbc
    exact (hle a c).2 (le_trans ((hle a b).1 hab) ((hle b c).1 hbc))
  · intro a b
    rw [Bool.or_eq_true, hle, hle]
    exact le_total (key a) (key b)

theorem pairwise_lt_mergeSort {l : List α} (h : (l.map key).Nodup) :
    (l.mergeSort le).Pairwise fun a b => key a < key b := by
  have hdistinct : (l.mergeSort le).Pairwise fun a b => key a ≠ key b :=
    List.pairwise_map.1 (((List.mergeSort_perm l le).map key).nodup_iff.2 h)
  exact (List.pairwise_and_iff.2 ⟨pairwise_le_mergeSort hle l, hdistinct⟩).imp fun h =>
    lt_of_le_of_ne h.1 h.2

end Sorting

/-! ## 2. Lists of names -/

theorem namesLe_iff : ∀ {a b : List String}, namesLe a b = true ↔ a ≤ b
  | [], b => by
      rw [← not_lt]
      simp [namesLe]
  | a :: as, [] => by
      rw [← not_lt]
      simp [namesLe]
  | a :: as, b :: bs => by
      have ih : namesLe as bs = true ↔ ¬ bs < as := namesLe_iff.trans not_lt.symm
      rw [← not_lt, List.cons_lt_cons_iff]
      rcases lt_trichotomy a b with h | rfl | h
      · simp [namesLe, h, h.not_gt, h.ne']
      · simp [namesLe, ih]
      · simp [namesLe, h, h.not_gt, h.ne']

/-! ## 3. Digits -/

theorem lt_digit {m n : Nat} (h : m < n) : m / 64 < n / 64 ∨ m / 64 = n / 64 ∧ m % 64 < n % 64 := by
  omega

/-- Of two numbers the greater has the greater digit where they first differ. -/
theorem digits_lt {m n : Nat} (h : m < n) (hn : n < 8 * 262144) :
    m / 262144 % 8 < n / 262144 % 8 ∨ m / 262144 % 8 = n / 262144 % 8 ∧
      (m / 4096 % 64 < n / 4096 % 64 ∨ m / 4096 % 64 = n / 4096 % 64 ∧
        (m / 64 % 64 < n / 64 % 64 ∨ m / 64 % 64 = n / 64 % 64 ∧ m % 64 < n % 64)) := by
  have hdiv : ∀ k : Nat, k / 4096 = k / 64 / 64 ∧ k / 262144 = k / 64 / 64 / 64 := by omega
  have hm : m / 64 / 64 / 64 < 8 := by omega
  have hn : n / 64 / 64 / 64 < 8 := by omega
  rw [(hdiv m).1, (hdiv m).2, (hdiv n).1, (hdiv n).2, Nat.mod_eq_of_lt hm, Nat.mod_eq_of_lt hn]
  rcases lt_digit h with h | ⟨h, hdigit⟩
  · rcases lt_digit h with h | ⟨h, hdigit⟩
    · rcases lt_digit h with h | ⟨h, hdigit⟩
      · exact Or.inl h
      · exact Or.inr ⟨h, Or.inl hdigit⟩
    · simp [h, hdigit]
  · simp [h, hdigit]

theorem ofNat_lt_iff {a b : Nat} (ha : a < 256) (hb : b < 256) :
    UInt8.ofNat a < UInt8.ofNat b ↔ a < b := by
  rw [UInt8.lt_iff_toNat_lt, UInt8.toNat_ofNat_of_lt' ha, UInt8.toNat_ofNat_of_lt' hb]

theorem ofNat_eq_iff {a b : Nat} (ha : a < 256) (hb : b < 256) :
    UInt8.ofNat a = UInt8.ofNat b ↔ a = b := by
  rw [← UInt8.toNat_inj, UInt8.toNat_ofNat_of_lt' ha, UInt8.toNat_ofNat_of_lt' hb]

/-! ## 4. Characters -/

/-- The bytes of a character tell it from a greater one before either ends. -/
theorem encode_append_lt {c d : Char} (h : c < d) (x y : List UInt8) :
    String.utf8EncodeChar c ++ x < String.utf8EncodeChar d ++ y := by
  have hlt : c.val.toNat < d.val.toNat := UInt32.lt_iff_toNat_lt.1 h
  have hd : d.val.toNat < 0x110000 := by
    rcases d.valid with h | h
    · omega
    · omega
  have hdigits := digits_lt hlt (hd.trans (by decide))
  simp only [String.utf8EncodeChar.eq_def]
  generalize c.val.toNat = m at hlt hdigits
  generalize d.val.toNat = n at hlt hd hdigits
  split_ifs
  all_goals
    simp (disch := omega) only [List.cons_append, List.nil_append, List.cons_lt_cons_iff,
      ofNat_lt_iff, ofNat_eq_iff, Nat.add_lt_add_iff_right, Nat.add_right_cancel_iff]
    omega

/-! ## 5. Texts -/

/-- The bytes of a text. -/
def bytes (s : String) : List UInt8 :=
  s.toUTF8.data.toList

theorem bytes_eq (s : String) : bytes s = s.toList.flatMap String.utf8EncodeChar := by
  have hencode : s.toUTF8 = s.toList.utf8Encode := String.utf8Encode_toList.symm
  rw [bytes, hencode, List.utf8Encode, List.toList_data_toByteArray]

theorem flatMap_encode_lt : ∀ {l k : List Char}, l < k →
    l.flatMap String.utf8EncodeChar < k.flatMap String.utf8EncodeChar
  | [], d :: k, _ => by
      obtain ⟨byte, rest, hbytes⟩ : ∃ byte rest, String.utf8EncodeChar d = byte :: rest :=
        List.exists_cons_of_ne_nil String.utf8EncodeChar_ne_nil
      rw [List.flatMap_cons, hbytes, List.cons_append]
      exact List.nil_lt_cons byte _
  | c :: l, d :: k, h => by
      rw [List.flatMap_cons, List.flatMap_cons]
      rcases List.cons_lt_cons_iff.1 h with hlt | ⟨rfl, hrest⟩
      · exact encode_append_lt hlt _ _
      · exact List.append_left_lt (flatMap_encode_lt hrest)

/-- **Texts are in the order of their bytes.** -/
theorem bytes_lt {a b : String} (h : a < b) : bytes a < bytes b := by
  rw [bytes_eq, bytes_eq]
  exact flatMap_encode_lt (String.lt_iff_toList_lt.1 h)

/-- Lists of names are in the order of their bytes, name by name. -/
theorem map_bytes_lt {a b : List String} (h : a < b) : a.map bytes < b.map bytes :=
  List.map_lt (fun _ _ => bytes_lt) h

end MasterSchema.Text
