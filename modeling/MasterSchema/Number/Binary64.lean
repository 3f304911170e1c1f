/-!
# Binary floating point numbers of 64 bits

A magnitude is the bits of a number without its sign; they count the magnitudes upwards from zero
to infinity. All arithmetic is exact and then rounded once, to the nearest magnitude, a tie to the
one with an even last bit.
-/

namespace MasterSchema.Binary64

/-! ## 1. Powers -/

/-- The `n`th power of two. -/
def twoTo (n : Nat) : Nat := Nat.pow 2 n

/-- The `n`th power of ten. -/
def tenTo (n : Nat) : Nat := Nat.pow 10 n

/-! ## 2. Rounding -/

/-- The magnitude above all finite ones. -/
def infinity : Nat := 2047 * twoTo 52

/-- The bits that stand for no number. -/
def notANumber : UInt64 := 0x7FF8000000000000

/-- The quotient, rounded to the nearest number; a tie goes to the even one. -/
def roundedQuotient (num den : Nat) : Nat :=
  let q := num / den
  let twice := 2 * (num % den)
  if twice < den then q
  else if den < twice then q + 1
  else q + q % 2

/-- The magnitude nearest to `num / den`, where `0 < den`. With `e` the exponent of the leading
    binary digit, magnitudes near the quotient are the multiples of `2 ^ (e - 52)`, and nowhere do
    they lie closer than `2 ^ (-1074)`. -/
def nearest (num den : Nat) : Nat :=
  if num = 0 then 0
  else
    let k : Int := num.log2 - den.log2
    let e : Int := if den * twoTo k.toNat ≤ num * twoTo (-k).toNat then k else k - 1
    let q : Int := max (e - 52) (-1074)
    let m := roundedQuotient (num * twoTo (-q).toNat) (den * twoTo q.toNat)
    min ((q + 1074).toNat * twoTo 52 + m) infinity

/-- How many decimal digits a number has. -/
def decimalLength (n : Nat) : Nat :=
  (Nat.toDigits 10 n).length

/-- The magnitude nearest to `digits * 10 ^ exponent`. Numbers of at least `10 ^ 400` and those
    below `10 ^ (-400)` need no arithmetic. -/
def ofDecimal (digits : Nat) (exponent : Int) : Nat :=
  if digits = 0 then 0
  else if 400 < exponent + decimalLength digits then infinity
  else if exponent + decimalLength digits < -400 then 0
  else nearest (digits * tenTo exponent.toNat) (tenTo (-exponent).toNat)

/-! ## 3. Arithmetic -/

/-- A finite magnitude as `m * 2 ^ q`. -/
def decode (magnitude : Nat) : Nat × Int :=
  let exponent : Nat := magnitude / twoTo 52
  let fraction := magnitude % twoTo 52
  if exponent = 0 then (fraction, -1074) else (twoTo 52 + fraction, Int.ofNat exponent - 1075)

/-- The magnitude nearest to `num / den * 2 ^ q`. -/
def nearestScaled (num den : Nat) (q : Int) : Nat :=
  nearest (num * twoTo q.toNat) (den * twoTo (-q).toNat)

/-- The rounded product of two finite magnitudes. -/
def times (a b : Nat) : Nat :=
  nearestScaled ((decode a).1 * (decode b).1) 1 ((decode a).2 + (decode b).2)

/-- The rounded quotient of two finite magnitudes, the second not zero. -/
def dividedBy (a b : Nat) : Nat :=
  nearestScaled (decode a).1 (decode b).1 ((decode a).2 - (decode b).2)

/-- The bits of a number with a sign. -/
def signed (negative : Bool) (magnitude : Nat) : UInt64 :=
  UInt64.ofNat (if negative then twoTo 63 + magnitude else magnitude)

end MasterSchema.Binary64
