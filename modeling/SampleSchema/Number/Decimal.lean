import SampleSchema.Number.Literal

/-!
# Decimal numbers

Decimal floating point of unbounded precision: a coefficient and a power of ten, with trailing zeros
kept, besides infinities and values that are not numbers. A decimal whose exponent is not negative
counts as an integer.
-/

namespace SampleSchema

/-- A decimal number. -/
inductive Decimal where
  /-- The number `coefficient * 10 ^ exponent` with a sign. -/
  | finite (negative : Bool) (coefficient : Nat) (exponent : Int)
  | infinity (negative : Bool)
  /-- Not a number, with a diagnostic payload. -/
  | nan (negative signaling : Bool) (payload : Nat)
  deriving DecidableEq, Repr

namespace Decimal

open Text

/-- The text of a finite decimal without its sign: positional when the exponent is not positive and
at most five zeros follow the point, and otherwise with one digit before the point. -/
def finiteText (coefficient : Nat) (exponent : Int) : String :=
  let digits := (Nat.repr coefficient).toList
  let point := digits.length + exponent
  if exponent ≤ 0 ∧ -6 < point then
    if point ≤ 0 then
      String.ofList ('0' :: '.' :: List.replicate (-point).toNat '0' ++ digits)
    else
      match digits.drop point.toNat with
      | [] => String.ofList digits
      | part => String.ofList (digits.take point.toNat ++ '.' :: part)
  else
    let lead := match digits with
      | d :: e :: ds => d :: '.' :: e :: ds
      | ds => ds
    let e := point - 1
    let sign := if e < 0 then "-" else "+"
    String.ofList lead ++ "E" ++ sign ++ Nat.repr e.natAbs

/-- The text of a decimal. -/
def text : Decimal → String
  | .finite negative c e => (if negative then "-" else "") ++ finiteText c e
  | .infinity negative   => (if negative then "-" else "") ++ "Infinity"
  | .nan negative signaling payload =>
    (if negative then "-" else "") ++ (if signaling then "sNaN" else "NaN") ++
      (if payload = 0 then "" else Nat.repr payload)

/-- Whether a decimal is a number other than the infinities. -/
def isFinite : Decimal → Bool
  | .finite .. => true
  | _ => false

/-- A finite decimal as a ratio with a sign. -/
def toRatio? : Decimal → Option (Int × Nat)
  | .finite negative c e =>
    let n : Int := (c * Nat.pow 10 e.toNat : Nat)
    some (if negative then -n else n, Nat.pow 10 (-e).toNat)
  | _ => none

end Decimal

end SampleSchema
