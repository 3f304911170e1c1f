import MasterSchema.Number.Binary64
import MasterSchema.Number.Digits
import MasterSchema.Value

/-!
# Numbers of JSON

A number without fraction and exponent is an integer if it fits, and an integer too large for a
data file is refused up to 64 bits without sign. All other numbers are floats. A float is worked
out in two steps, each rounded: the digits that fit into 64 bits become a float, and that is
multiplied or divided by a power of ten. It is not always the float nearest to the number.
-/

namespace MasterSchema.Json

/-- A number as written. -/
structure Number where
  negative : Bool
  whole : List Char
  fraction : Option (List Char)
  /-- The sign and the digits of the exponent. -/
  exponent : Option (Bool × List Char)
  deriving DecidableEq, Repr

/-- The greatest exponent that is worked with. -/
def maxExponent : Nat := 2147483647

/-- Digits put behind a significand as long as it stays within the limit; how many were put. -/
def extend (significand : Nat) : List Char → Nat × Nat
  | [] => (significand, 0)
  | c :: rest =>
    let next := 10 * significand + (Digits.worth? c).getD 0
    if next ≤ Digits.maxUnsigned then
      let (end_, count) := extend next rest
      (end_, count + 1)
    else (significand, 0)

/-- The greatest power of ten that a float can be multiplied with at once. -/
def maxPower : Nat := 308

/-- The magnitude of `10 ^ n`, rounded. -/
def powerOfTen (n : Nat) : Nat :=
  Binary64.nearest (Binary64.tenTo n) 1

/-- A magnitude times `10 ^ exponent`; nothing where that is too large. A very small factor is
    applied in several steps. -/
def scaled (magnitude : Nat) (exponent : Int) : Option Nat :=
  if exponent.natAbs ≤ maxPower then
    if 0 ≤ exponent then
      let product := Binary64.times magnitude (powerOfTen exponent.toNat)
      if product < Binary64.infinity then some product else none
    else some (Binary64.dividedBy magnitude (powerOfTen (-exponent).toNat))
  else if magnitude = 0 then some 0
  else if 0 ≤ exponent then none
  else scaled (Binary64.dividedBy magnitude (powerOfTen maxPower)) (exponent + maxPower)
termination_by (-exponent).toNat
decreasing_by
  simp only [maxPower] at *
  omega

namespace Number

/-- The magnitude of a number read as a float. -/
def magnitude? (n : Number) : Option Nat :=
  let (first, taken) := extend 0 n.whole
  let dropped := n.whole.length - taken
  let (significand, places) := extend first (n.fraction.getD [])
  let shift : Int := dropped - places
  match n.exponent with
  | none => scaled (Binary64.nearest significand 1) shift
  | some (down, digits) =>
    let power := Digits.number 10 digits
    if maxExponent < power then
      if significand ≠ 0 ∧ !down then none else some 0
    else
      scaled (Binary64.nearest significand 1)
        (if down then shift - power else shift + power)

def isInteger (n : Number) : Bool :=
  n.fraction.isNone && n.exponent.isNone

/-- The number as a float. -/
def float? (n : Number) : Option Value :=
  n.magnitude?.map fun magnitude => .float (Binary64.signed n.negative magnitude)

/-- The value of a number. Zero with a minus is a float. -/
def value? (n : Number) : Option Value :=
  let digits := Digits.number 10 n.whole
  if n.isInteger && decide (digits ≤ Digits.maxUnsigned) then
    if n.negative then
      if digits = 0 ∨ -(digits : Int) < Digits.minInteger then n.float?
      else some (.integer (-digits))
    else if digits ≤ Digits.maxInteger then some (.integer digits)
    else none
  else n.float?

end Number

end MasterSchema.Json
