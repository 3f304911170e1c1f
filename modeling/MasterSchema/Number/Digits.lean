/-!
# Numbers written in digits
-/

namespace MasterSchema.Digits

/-- The worth of a digit, up to base 16; letters count in both cases. -/
def worth? (c : Char) : Option Nat :=
  if '0' ≤ c ∧ c ≤ '9' then some (c.toNat - '0'.toNat)
  else if 'a' ≤ c ∧ c ≤ 'f' then some (c.toNat - 'a'.toNat + 10)
  else if 'A' ≤ c ∧ c ≤ 'F' then some (c.toNat - 'A'.toNat + 10)
  else none

/-- Whether a character is a digit of a base of at most 16. -/
def isDigitOf (base : Nat) (c : Char) : Bool :=
  match worth? c with
  | some n => decide (n < base)
  | none => false

/-- The number that digits write in a base, most significant digit first. -/
def number (base : Nat) (digits : List Char) : Nat :=
  digits.foldl (fun n c => base * n + (worth? c).getD 0) 0

/-- The character with a code point, unless it is a surrogate or too large. -/
def char? (codePoint : Nat) : Option Char :=
  if codePoint.isValidChar then some (Char.ofNat codePoint) else none

/-- The least integer that a data file can hold. -/
def minInteger : Int := -9223372036854775808

/-- The greatest integer that a data file can hold. -/
def maxInteger : Int := 9223372036854775807

/-- The greatest number of 64 bits without a sign. -/
def maxUnsigned : Nat := 18446744073709551615

/-- A number in decimal digits, with zeros in front up to a width. -/
def padded (width n : Nat) : String :=
  let digits := Nat.toDigits 10 n
  String.ofList (List.replicate (width - digits.length) '0' ++ digits)

end MasterSchema.Digits
