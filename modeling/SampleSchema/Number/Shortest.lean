import SampleSchema.Number.Double
import SampleSchema.Text.Digits

/-!
# Shortest decimals

A finite double is written with the fewest digits that read back as the same double, and among the
decimals with that many digits with the nearest one. If any decimal of some length reads back, then
one of the two neighbours of the value on the grid of that length does, so only those are tried.

The text is positional while the decimal point falls inside `Double.pointRange`, and then always
shows a fractional digit; beyond that it has an exponent of at least two digits.
-/

namespace SampleSchema

/-- The decimal `digits * 10 ^ exponent`. -/
structure ShortDecimal where
  digits   : Nat
  exponent : Int
  deriving DecidableEq, Repr

namespace Double

/-- The greatest `k` with `10 ^ k ≤ num / den`, for a positive ratio. -/
def floorLog10 (num den : Nat) : Int :=
  if den ≤ num then ((Nat.repr (num / den)).length : Int) - 1
  else -((Nat.repr ((den + num - 1) / num - 1)).length : Int)

/-- The decimal of `n` significant digits that reads back as the positive finite double `x`, the
nearer one if both neighbours of the value do. -/
def decimalOfLength? (x : Double) (n : Nat) : Option ShortDecimal :=
  let (num, den) := x.magnitude
  let e := floorLog10 num den - n + 1
  let a := num * Nat.pow 10 (-e).toNat
  let b := den * Nat.pow 10 e.toNat
  let near := roundDiv a b
  let far := if near = a / b then near + 1 else a / b
  [near, far].findSome? fun d =>
    if (ofDecimal false d e).magnitudeBits = x.magnitudeBits then some ⟨d, e⟩ else none

/-- A decimal without trailing zeros; the first argument bounds their number. -/
def dropZeros : Nat → ShortDecimal → ShortDecimal
  | 0, d => d
  | n + 1, d =>
    if d.digits % 10 = 0 ∧ d.digits ≠ 0 then dropZeros n ⟨d.digits / 10, d.exponent + 1⟩ else d

/-- The shortest decimal that reads back as a nonzero finite double; seventeen digits always do. -/
def shortest (x : Double) : ShortDecimal :=
  match (List.range 17).findSome? fun n => x.decimalOfLength? (n + 1) with
  | some d => dropZeros 18 d
  | none => ⟨0, 0⟩

/-- The places of the decimal point, counted from the first digit, at which no exponent is used. -/
def pointRange : Int × Int := (-3, 16)

/-- Digits with the decimal point after the first `point` of them. -/
def positional (digits : List Char) (point : Int) (keepPoint : Bool) : List Char :=
  if point ≤ 0 then '0' :: '.' :: List.replicate (-point).toNat '0' ++ digits
  else
    let whole := digits.take point.toNat ++ List.replicate (point.toNat - digits.length) '0'
    match digits.drop point.toNat with
    | [] => if keepPoint then whole ++ ['.', '0'] else whole
    | part => whole ++ '.' :: part

/-- Digits with one of them before the decimal point and an exponent behind. -/
def scientific (digits : List Char) (exponent : Int) : List Char :=
  let lead := match digits with
    | d :: e :: ds => d :: '.' :: e :: ds
    | ds => ds
  let sign := if exponent < 0 then '-' else '+'
  lead ++ 'e' :: sign :: (Text.decimal 2 exponent.natAbs).toList

/-- The text of a double; `keepPoint` asks for a fractional digit where there is no exponent. -/
def textWith (keepPoint : Bool) (x : Double) : String :=
  if x.isNaN then "nan"
  else
    let body : List Char :=
      if !x.isFinite then "inf".toList
      else if x.isZero then (if keepPoint then "0.0" else "0").toList
      else
        let d := x.shortest
        let digits := (Nat.repr d.digits).toList
        let point := digits.length + d.exponent
        if pointRange.1 ≤ point ∧ point ≤ pointRange.2 then positional digits point keepPoint
        else scientific digits (point - 1)
    String.ofList (if x.isNegative then '-' :: body else body)

/-- The text of a double. -/
def text (x : Double) : String := textWith true x

end Double

end SampleSchema
