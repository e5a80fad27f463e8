import SampleSchema.Datum
import SampleSchema.Number.Literal
import SampleSchema.Text.Base64
import SampleSchema.Text.LowerCase
import SampleSchema.Yaml.Cursor
import SampleSchema.Yaml.Tag

/-!
# The values of scalars

What a scalar means under its tag. Numbers may have underscores anywhere, and parts between colons are
digits of base sixty. An integer that starts with a zero is written in base two, eight or sixteen. A
time without an offset is local.
-/

namespace SampleSchema.Yaml

open Text

/-- A text without underscores. -/
def withoutLines (s : String) : List Char := s.toList.filter (· != '_')

/-- Whether a text starts with a minus sign, and the text after its sign; an empty text is a fault. -/
def signed : List Char → Except Fault (Bool × List Char)
  | [] => .error .emptyNumber
  | cs => .ok (Literal.sign cs)

/-- The value of a reading that may fail. -/
def orBad {α : Type} : Option α → Except Fault α
  | some a => .ok a
  | none => .error .badScalar

/-- The natural number that a text without its sign writes. -/
def magnitude (cs : List Char) : Except Fault Int :=
  match cs with
  | [] => .error .emptyNumber
  | ['0'] => .ok 0
  | '0' :: 'b' :: ds => orBad (Literal.integerIn? 2 (String.ofList ds))
  | '0' :: 'x' :: ds => orBad (Literal.integerIn? 16 (String.ofList ds))
  | '0' :: _ => orBad (Literal.integerIn? 8 (String.ofList cs))
  | cs => do
    let parts ← orBad ((splitAt ':' cs).mapM fun part => Literal.integer? (String.ofList part))
    return parts.foldl (fun n d => 60 * n + d) 0

/-- The integer that a text writes. -/
def intValue (s : String) : Except Fault Int := do
  let (negative, cs) ← signed (withoutLines s)
  let n ← magnitude cs
  return if negative then -n else n

/-- The sum of the digits of base sixty, the least significant first, where the first has the given
weight. -/
def sixtieths (weight : Nat) (sum : Double) : List Double → Except Fault Double
  | [] => .ok sum
  | d :: ds =>
    let w := Double.ofInt weight
    if w.isFinite then sixtieths (weight * 60) (sum.add (d.mul w)) ds else .error .outOfRange

/-- The double that a text writes. -/
def floatValue (s : String) : Except Fault Double := do
  let (negative, cs) ← signed ((withoutLines s).map Char.toLower)
  let x ←
    if cs = ".inf".toList then .ok (Double.infinity false)
    else if cs = ".nan".toList then .ok Double.nan
    else match splitAt ':' cs with
      | [_] => orBad (Literal.double? (String.ofList cs))
      | parts => do
        let ds ← orBad (parts.mapM fun part => Literal.double? (String.ofList part))
        sixtieths 1 (Double.ofMagnitude false 0) ds.reverse
  return if negative then x.neg else x

/-- The truth value of a word in any case. -/
def boolValue (s : String) : Except Fault Bool :=
  let word := lower s
  if ["yes", "true", "on"].contains word then .ok true
  else if ["no", "false", "off"].contains word then .ok false
  else .error (.unknownWord word)

/-- The bytes that a text writes in base 64. -/
def binaryValue (s : String) : Except Fault (List UInt8) :=
  if s.toList.all (·.toNat < 0x80) then
    match decodeBase64 s.toList with
    | some bytes => .ok bytes
    | none => .error .malformed
  else .error .malformed

/-- The number that ASCII digits write. -/
def numberOf (ds : List Char) : Nat := ofDigits (ds.filterMap (digitValue? 10))

/-- The microseconds that the digits of a fraction of a second write. -/
def microseconds (ds : List Char) : Nat :=
  let six := ds.take 6
  numberOf six * Nat.pow 10 (6 - six.length)

/-- The offset of a sign, hours and minutes. -/
def offsetOf? : Option (Char × List Char × List Char) → Option Offset
  | none => some .universal
  | some (sign, hours, minutes) =>
    let total : Int := (numberOf hours * 60 + numberOf minutes) * 60 * 1000000
    Offset.of? (if sign = '-' then -total else total)

/-- The date, or the date and time, that a text writes. -/
def timestampValue (s : String) : Except Fault Datum :=
  match timestampParts? (withoutLineFeed s.toList) with
  | none => .error .notATimestamp
  | some t => do
    let date ← orBad (Date.of? (numberOf t.year) (numberOf t.month) (numberOf t.day))
    match t.time with
    | none => return .date date
    | some (hour, minute, second, fraction) =>
      let clock ← orBad (Clock.of? (numberOf hour) (numberOf minute) (numberOf second)
        (microseconds fraction))
      let offset ← t.offset.mapM fun o => orBad (offsetOf? o)
      return .moment ⟨date, clock, offset⟩

/-- The value of a text under a tag of scalars; other tags have none. -/
def scalarValue? (t : Tag) (s : String) : Option (Except Fault Datum) :=
  match t with
  | .null      => some (.ok .null)
  | .bool      => some ((boolValue s).map .bool)
  | .int       => some ((intValue s).map .int)
  | .float     => some ((floatValue s).map .float)
  | .binary    => some ((binaryValue s).map .bytes)
  | .timestamp => some (timestampValue s)
  | .text      => some (.ok (.string s))
  | _          => none

end SampleSchema.Yaml
