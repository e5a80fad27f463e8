/-!
# Binary floating point

The numbers of IEEE 754 binary64, held as their 64 bits and computed with exactly: every operation
works out its result as a ratio of natural numbers and then rounds that ratio to the nearest
double, a tie going to the even significand.

* `Double.ofRatio` rounds a ratio, `Double.ofDecimal` a decimal.
-/

namespace SampleSchema

/-- A quotient rounded to the nearest natural number, a tie to the even one. -/
def roundDiv (num den : Nat) : Nat :=
  let q := num / den
  let r := 2 * (num % den)
  if r < den then q else if den < r then q + 1 else q + q % 2

/-- A double, as its bits. -/
structure Double where
  bits : UInt64
  deriving DecidableEq, Repr

namespace Double

/-- The double with the given sign and the given bits below the sign. -/
def ofMagnitude (negative : Bool) (magnitude : Nat) : Double :=
  ⟨UInt64.ofNat (magnitude + if negative then Nat.pow 2 63 else 0)⟩

/-- The bits of infinity, the least magnitude that is not finite. -/
def infinityBits : Nat := 2047 * Nat.pow 2 52

/-- Infinity of the given sign. -/
def infinity (negative : Bool) : Double := ofMagnitude negative infinityBits

/-- The quiet value that is not a number. -/
def nan : Double := ofMagnitude false (infinityBits + Nat.pow 2 51)

/-- Whether the sign bit is set. -/
def isNegative (x : Double) : Bool := Nat.pow 2 63 ≤ x.bits.toNat

/-- The bits below the sign. -/
def magnitudeBits (x : Double) : Nat := x.bits.toNat % Nat.pow 2 63

/-- Whether the double is a number other than the infinities. -/
def isFinite (x : Double) : Bool := x.magnitudeBits < infinityBits

/-- Whether the double is not a number. -/
def isNaN (x : Double) : Bool := infinityBits < x.magnitudeBits

/-- Whether the double is one of the two zeros. -/
def isZero (x : Double) : Bool := x.magnitudeBits = 0

/-- The exponent field. -/
def exponentField (x : Double) : Nat := x.magnitudeBits / Nat.pow 2 52

/-- The significand `m` of a finite double, whose magnitude is `m * 2 ^ x.power`. -/
def significand (x : Double) : Nat :=
  x.magnitudeBits % Nat.pow 2 52 + if x.exponentField = 0 then 0 else Nat.pow 2 52

/-- The power of two that belongs to the significand. -/
def power (x : Double) : Int := max (x.exponentField : Int) 1 - 1075

/-- The magnitude of a finite double as a ratio. -/
def magnitude (x : Double) : Nat × Nat :=
  (x.significand * Nat.pow 2 x.power.toNat, Nat.pow 2 (-x.power).toNat)

/-- A finite double as a ratio with a sign. -/
def toRatio (x : Double) : Int × Nat :=
  (if x.isNegative then -(x.magnitude.1 : Int) else x.magnitude.1, x.magnitude.2)

/-- The greatest `e` with `2 ^ e ≤ num / den`, for a positive ratio. -/
def floorLog2 (num den : Nat) : Int :=
  let e : Int := (Nat.log2 num : Int) - Nat.log2 den
  if den * Nat.pow 2 e.toNat ≤ num * Nat.pow 2 (-e).toNat then e else e - 1

/-- The double nearest to a ratio, which is infinite when the ratio is too large. -/
def ofRatio (negative : Bool) (num den : Nat) : Double :=
  if num = 0 then ofMagnitude negative 0
  else
    let q : Int := max (floorLog2 num den - 52) (-1074)
    let m := roundDiv (num * Nat.pow 2 (-q).toNat) (den * Nat.pow 2 q.toNat)
    ofMagnitude negative (min ((q + 1074).toNat * Nat.pow 2 52 + m) infinityBits)

/-- The double nearest to a ratio with a sign. -/
def ofSignedRatio (num : Int) (den : Nat) : Double := ofRatio (num < 0) num.natAbs den

/-- The double nearest to an integer. -/
def ofInt (n : Int) : Double := ofSignedRatio n 1

/-- The double nearest to `digits * 10 ^ exponent`. Outside the exponents of the first two cases the
power of ten is small enough to be worked out. -/
def ofDecimal (negative : Bool) (digits : Nat) (exponent : Int) : Double :=
  if digits = 0 ∨ exponent < -402 - (Nat.log2 digits : Int) then ofMagnitude negative 0
  else if 400 < exponent then infinity negative
  else ofRatio negative (digits * Nat.pow 10 exponent.toNat) (Nat.pow 10 (-exponent).toNat)

/-- The rounded product. -/
def mul (x y : Double) : Double :=
  let negative := x.isNegative != y.isNegative
  if x.isNaN || y.isNaN then nan
  else if x.isFinite && y.isFinite then
    ofRatio negative (x.magnitude.1 * y.magnitude.1) (x.magnitude.2 * y.magnitude.2)
  else if x.isZero || y.isZero then nan
  else infinity negative

/-- The rounded sum. -/
def add (x y : Double) : Double :=
  if x.isNaN || y.isNaN then nan
  else if x.isFinite && y.isFinite then
    if x.isZero && y.isZero then ofMagnitude (x.isNegative && y.isNegative) 0
    else
      let a := x.toRatio
      let b := y.toRatio
      ofSignedRatio (a.1 * b.2 + b.1 * a.2) (a.2 * b.2)
  else if x.isFinite then y
  else if y.isFinite || x.isNegative == y.isNegative then x
  else nan

/-- The double with the opposite sign. -/
def neg (x : Double) : Double := ofMagnitude (!x.isNegative) x.magnitudeBits

end Double

end SampleSchema
