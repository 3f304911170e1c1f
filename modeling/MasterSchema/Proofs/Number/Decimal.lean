import Mathlib.Data.List.Basic
import Mathlib.Data.List.Induction
import MasterSchema.Number.Digits

/-!
# Numbers in decimal digits

A text of digits writes a number (`decimal`). It is the digits of that number with zeros in front of
them, and nothing else writes the number (`numeral_iff_padded`).
-/

namespace MasterSchema.Digits

/-- A text of decimal digits, at least one. -/
def Numeral (text : String) : Prop :=
  text ≠ "" ∧ ∀ c ∈ text.toList, '0' ≤ c ∧ c ≤ '9'

instance (text : String) : Decidable (Numeral text) :=
  decidable_of_iff (text ≠ "" ∧ text.toList.all (fun c => '0' ≤ c ∧ c ≤ '9') = true)
    (by simp [Numeral])

/-- The number that decimal digits write. -/
def decimal (text : String) : Nat := Nat.ofDigitChars 10 text.toList 0

variable {c : Char} {digits : List Char} {text : String} {n : Nat}

/-! ## 1. Digits -/

theorem isDigit_iff : c.isDigit = true ↔ '0' ≤ c ∧ c ≤ '9' := by
  simp [Char.isDigit, Char.le_def]

theorem toNat_of_isDigit (h : c.isDigit = true) : 48 ≤ c.toNat ∧ c.toNat ≤ 57 := by
  simpa [Char.isDigit, UInt32.le_iff_toNat_le] using h

theorem digitChar_of_isDigit (h : c.isDigit = true) : Nat.digitChar (c.toNat - '0'.toNat) = c := by
  have hbounds := toNat_of_isDigit h
  have hzero : '0'.toNat = 48 := rfl
  refine Char.toNat_inj.1 ?_
  rw [Nat.toNat_digitChar_of_lt_ten (by omega)]
  omega

theorem worth?_of_isDigit (h : c.isDigit = true) : worth? c = some (c.toNat - '0'.toNat) := by
  rw [worth?, if_pos (isDigit_iff.1 h)]

/-- Decimal digits have the worth that they are usually given. -/
theorem number_eq (h : ∀ c ∈ digits, c.isDigit = true) :
    number 10 digits = Nat.ofDigitChars 10 digits 0 := by
  refine List.foldl_ext _ _ _ fun n c hc => ?_
  rw [worth?_of_isDigit (h c hc), Option.getD_some]

/-! ## 2. Zeros in front -/

theorem ofDigitChars_zeros (zeros : Nat) :
    Nat.ofDigitChars 10 (List.replicate zeros '0' ++ digits) 0 = Nat.ofDigitChars 10 digits 0 := by
  induction zeros with
  | zero => rfl
  | succ zeros ih => rw [List.replicate_succ, List.cons_append, Nat.ofDigitChars_cons]; exact ih

/-- **Digits are those of the number that they write, with zeros in front.** -/
theorem exists_padded (hne : digits ≠ []) (h : ∀ c ∈ digits, c.isDigit = true) :
    ∃ zeros, digits
      = List.replicate zeros '0' ++ Nat.toDigits 10 (Nat.ofDigitChars 10 digits 0) := by
  induction digits using List.reverseRecOn with
  | nil => exact absurd rfl hne
  | append_singleton front c ih =>
    rw [List.forall_mem_append] at h
    have hc := h.2 c List.mem_cons_self
    have hlt : c.toNat - '0'.toNat < 10 := by
      have hbounds := toNat_of_isDigit hc
      have hzero : '0'.toNat = 48 := rfl
      omega
    have hlast : Nat.toDigits 10 (c.toNat - '0'.toNat) = [c] := by
      rw [Nat.toDigits_of_lt_base hlt, digitChar_of_isDigit hc]
    rw [Nat.ofDigitChars_append, Nat.ofDigitChars_cons, Nat.ofDigitChars_nil]
    by_cases hfront : front = []
    · exact ⟨0, by rw [hfront, Nat.ofDigitChars_nil, Nat.mul_zero, Nat.zero_add, hlast]; rfl⟩
    · obtain ⟨zeros, hzeros⟩ := ih hfront h.1
      rcases Nat.eq_zero_or_pos (Nat.ofDigitChars 10 front 0) with hzero | hpos
      · -- all before the last digit are zeros
        refine ⟨zeros + 1, ?_⟩
        rw [hzero] at hzeros
        rw [hzero, Nat.mul_zero, Nat.zero_add, hlast, hzeros, List.replicate_succ']
        rfl
      · refine ⟨zeros, ?_⟩
        rw [← Nat.toDigits_append_toDigits (by decide) hpos hlt, hlast, ← List.append_assoc,
          ← hzeros]

/-- **A numeral of a number is its digits with zeros in front.** -/
theorem numeral_iff_padded : Numeral text ∧ decimal text = n ↔
    ∃ zeros, text.toList = List.replicate zeros '0' ++ (toString n).toList := by
  have hdigits : (toString n).toList = Nat.toDigits 10 n := Nat.toList_repr
  rw [hdigits]
  constructor
  · intro hboth
    obtain ⟨⟨hne, hall⟩, rfl⟩ := hboth
    exact exists_padded (fun hnil => hne (String.toList_eq_nil_iff.1 hnil)) fun c hc =>
      isDigit_iff.2 (hall c hc)
  · intro hsome
    obtain ⟨zeros, hzeros⟩ := hsome
    refine ⟨⟨fun hempty => ?_, fun c hc => ?_⟩, ?_⟩
    · rw [hempty] at hzeros
      exact Nat.toDigits_ne_nil (List.append_eq_nil_iff.1 hzeros.symm).2
    · rw [hzeros] at hc
      rcases List.mem_append.1 hc with hc | hc
      · rw [List.eq_of_mem_replicate hc]
        decide
      · exact isDigit_iff.1 (Nat.isDigit_of_mem_toDigits (by decide) (by decide) hc)
    · rw [decimal, hzeros, ofDigitChars_zeros, Nat.ofDigitChars_toDigits (by decide) (by decide)]

end MasterSchema.Digits
