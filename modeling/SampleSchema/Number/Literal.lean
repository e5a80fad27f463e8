import SampleSchema.Number.Double
import SampleSchema.Text.Blank
import SampleSchema.Text.DecimalDigit
import SampleSchema.Text.Digits

/-!
# Number literals

The texts that write a number. Blanks around the number are ignored, digits may come from any script
with decimal digits, and a single underscore may stand between two digits.

* an integer is an optional sign and digits, at most `Literal.maxDigits` of them in base ten;
* a double is an optional sign followed by digits with an optional point and exponent, or by the
  word for infinity or for the value that is not a number, in any case.
-/

namespace SampleSchema.Literal

open Text

/-- The most decimal digits that an integer literal may have. -/
def maxDigits : Nat := 4300

/-- The characters of a literal: no outer blanks, and every decimal digit as an ASCII one. -/
def characters (s : String) : List Char :=
  (trimChars s.toList).map fun c =>
    match decimalValue? c with
    | some d => Char.ofNat ('0'.toNat + d)
    | none => c

/-- The digits at the start of a text that follow a digit, and the rest. -/
def moreDigits (base : Nat) : List Char → List Nat × List Char
  | [] => ([], [])
  | '_' :: c :: cs =>
    match digitValue? base c with
    | some d => let r := moreDigits base cs; (d :: r.1, r.2)
    | none => ([], '_' :: c :: cs)
  | c :: cs =>
    match digitValue? base c with
    | some d => let r := moreDigits base cs; (d :: r.1, r.2)
    | none => ([], c :: cs)

/-- The digits at the start of a text, and the rest. -/
def leadingDigits (base : Nat) : List Char → List Nat × List Char
  | [] => ([], [])
  | c :: cs =>
    match digitValue? base c with
    | some d => let r := moreDigits base cs; (d :: r.1, r.2)
    | none => ([], c :: cs)

/-- Whether a text starts with a minus sign, and the text after its sign. -/
def sign : List Char → Bool × List Char
  | '-' :: cs => (true, cs)
  | '+' :: cs => (false, cs)
  | cs => (false, cs)

/-- The letter that announces a base after a zero. -/
def baseLetter? : Nat → Option Char
  | 2 => some 'b'
  | 8 => some 'o'
  | 16 => some 'x'
  | _ => none

/-- A text after the announcement of its base, if it has one. -/
def afterBase (base : Nat) : List Char → List Char
  | '0' :: c :: cs =>
    if some c.toLower = baseLetter? base then
      match cs with
      | '_' :: ds => ds
      | _ => cs
    else '0' :: c :: cs
  | cs => cs

/-- The number that a list of digits writes in a base. -/
def valueIn (base : Nat) (ds : List Nat) : Nat := ds.foldl (fun n d => base * n + d) 0

/-- The integer that a text writes in a base. -/
def integerIn? (base : Nat) (s : String) : Option Int :=
  let (negative, cs) := sign (characters s)
  match leadingDigits base (afterBase base cs) with
  | ([], _) => none
  | (_, _ :: _) => none
  | (ds, []) =>
    if base = 10 ∧ maxDigits < ds.length then none
    else some (if negative then -(valueIn base ds : Int) else valueIn base ds)

/-- The integer that a text writes in base ten. -/
def integer? (s : String) : Option Int := integerIn? 10 s

/-- The decimal exponent at the end of a literal, or zero when there is none. -/
def exponent? : List Char → Option Int
  | [] => some 0
  | c :: cs =>
    if c = 'e' ∨ c = 'E' then
      let (negative, cs) := sign cs
      match leadingDigits 10 cs with
      | ([], _) => none
      | (_, _ :: _) => none
      | (ds, []) => some (if negative then -(ofDigits ds : Int) else ofDigits ds)
    else none

/-- The double with the given sign that an unsigned literal of digits writes. -/
def decimal? (negative : Bool) (cs : List Char) : Option Double :=
  let (whole, cs) := leadingDigits 10 cs
  let (part, cs) := match cs with
    | '.' :: cs => leadingDigits 10 cs
    | cs => ([], cs)
  if whole.isEmpty && part.isEmpty then none
  else (exponent? cs).map fun e =>
    Double.ofDecimal negative (ofDigits (whole ++ part)) (e - part.length)

/-- The double that a text writes. -/
def double? (s : String) : Option Double :=
  let (negative, cs) := sign (characters s)
  let word := String.ofList (cs.map Char.toLower)
  if word = "inf" ∨ word = "infinity" then some (Double.infinity negative)
  else if word = "nan" then some Double.nan
  else decimal? negative cs

end SampleSchema.Literal
