import SampleSchema.Calendar
import SampleSchema.Text.DecimalDigit

/-!
# Timestamps in text

A text is a timestamp when it writes a real date, or a real date and time of day, in one of five
layouts. Digits may come from any script, a second may be the leap second 60, and one line feed at
the end is ignored. A text that is no timestamp may still look like a decimal number.

`meaning?` gives the first meaning that fits, the layouts in their fixed order before the number.
-/

namespace SampleSchema

open Text

/-- The layouts of a timestamp. -/
inductive Layout where
  /-- A date, `T`, a time and an offset, as in `2006-01-02T15:04:05Z`. -/
  | rfc3339
  /-- The same without a colon in the offset or without any offset. -/
  | localIso
  /-- A date, a space, a time and perhaps a zone, as in `2006-01-02 15:04:05`. -/
  | sqlDatetime
  /-- With the names of weekday, month and zone, as in `Mon, 02 Jan 2006 15:04:05 MST`. -/
  | rfc1123
  /-- A date alone, as in `2006-01-02`. -/
  | date
  deriving DecidableEq, Repr

namespace Layout

/-- The name of a layout. -/
def name : Layout → String
  | .rfc3339     => "rfc3339"
  | .localIso    => "iso8601_local"
  | .sqlDatetime => "sql_datetime"
  | .rfc1123     => "rfc1123"
  | .date        => "date"

/-- All layouts, the most specific first. -/
def all : List Layout := [.rfc3339, .localIso, .sqlDatetime, .rfc1123, .date]

/-- Every layout is among all layouts. -/
theorem mem_all : ∀ l : Layout, l ∈ all
  | .rfc3339 | .localIso | .sqlDatetime | .rfc1123 | .date => by simp [all]

/-- The layouts of the given names in their fixed order, or the names that no layout has, each once
and sorted. -/
def ofNames (names : List String) : Except (List String) (List Layout) :=
  let unknown := names.filter fun n => !all.any (·.name = n)
  if unknown.isEmpty then .ok (all.filter fun l => names.contains l.name)
  else .error (unknown.eraseDups.mergeSort fun a b => a ≤ b)

end Layout

/-- The numbers of a date and a time of day as they are written, real or not. -/
structure WrittenTime where
  year   : Nat
  month  : Nat
  day    : Nat
  hour   : Nat
  minute : Nat
  second : Nat
  deriving DecidableEq, Repr

/-- Whether the numbers name a real date and time of day; a leap second counts as the one before. -/
def WrittenTime.IsReal (t : WrittenTime) : Prop :=
  IsDate t.year t.month t.day ∧ IsClock t.hour t.minute (if t.second = 60 then 59 else t.second) 0

instance (t : WrittenTime) : Decidable t.IsReal := inferInstanceAs (Decidable (_ ∧ _))

namespace Timestamp

/-- The number that exactly `n` digits at the start of a text write, and the rest. -/
def number? (n : Nat) (cs : List Char) : Option (Nat × List Char) := do
  let ds ← (cs.take n).mapM decimalValue?
  if ds.length = n then some (ofDigits ds, cs.drop n) else none

/-- The text after a given character. -/
def after? (c : Char) : List Char → Option (List Char)
  | d :: cs => if d = c then some cs else none
  | [] => none

/-- Year, month and day joined by hyphens, and the rest. -/
def date? (cs : List Char) : Option ((Nat × Nat × Nat) × List Char) := do
  let (year, cs) ← number? 4 cs
  let (month, cs) ← number? 2 (← after? '-' cs)
  let (day, cs) ← number? 2 (← after? '-' cs)
  return ((year, month, day), cs)

/-- The text after a fraction of one to nine digits; without a point there is no fraction. -/
def afterFraction? : List Char → Option (List Char)
  | '.' :: cs =>
    let n := (cs.takeWhile isDecimal).length
    if 1 ≤ n ∧ n ≤ 9 then some (cs.drop n) else none
  | cs => some cs

/-- Hour, minute and second joined by colons, and the rest after any fraction. -/
def clock? (cs : List Char) : Option ((Nat × Nat × Nat) × List Char) := do
  let (hour, cs) ← number? 2 cs
  let (minute, cs) ← number? 2 (← after? ':' cs)
  let (second, cs) ← number? 2 (← after? ':' cs)
  return ((hour, minute, second), ← afterFraction? cs)

/-- Whether a character is a plus or a minus sign. -/
def isSign (c : Char) : Bool := c = '+' || c = '-'

/-- Whether a text is a sign and four digits. -/
def isPlainOffset : List Char → Bool
  | [s, a, b, c, d] => isSign s && [a, b, c, d].all isDecimal
  | _ => false

/-- Whether a text is a sign and two pairs of digits with a colon between. -/
def isColonOffset : List Char → Bool
  | [s, a, b, ':', c, d] => isSign s && [a, b, c, d].all isDecimal
  | _ => false

/-- Whether a text is a sign and two digits. -/
def isHourOffset : List Char → Bool
  | [s, a, b] => isSign s && [a, b].all isDecimal
  | _ => false

/-- Whether a text is a zone of the layout for databases. -/
def isSqlZone (cs : List Char) : Bool :=
  cs == ['Z'] || cs == ['U', 'T', 'C'] || isHourOffset cs || isColonOffset cs || isPlainOffset cs

/-- Whether a text is the name of a zone: three or four capital letters. -/
def isZoneName (cs : List Char) : Bool :=
  (cs.length = 3 || cs.length = 4) && cs.all Char.isUpper

/-- The abbreviated names of the weekdays. -/
def weekdays : List String := ["Mon", "Tue", "Wed", "Thu", "Fri", "Sat", "Sun"]

/-- The abbreviated names of the months, in lower case. -/
def months : List String :=
  ["jan", "feb", "mar", "apr", "may", "jun", "jul", "aug", "sep", "oct", "nov", "dec"]

/-- The number of the month with a name of three letters in any case. -/
def month? (name : List Char) : Option Nat :=
  (months.idxOf? (String.ofList (name.map Char.toLower))).map (· + 1)

/-- A date, the letter T in either case, a time, and the rest. -/
def dateTime? (cs : List Char) : Option (WrittenTime × List Char) := do
  let ((year, month, day), cs) ← date? cs
  let cs ← (after? 'T' cs <|> after? 't' cs)
  let ((hour, minute, second), cs) ← clock? cs
  return (⟨year, month, day, hour, minute, second⟩, cs)

/-- What a text without a final line feed writes in a layout. -/
def written? (l : Layout) (cs : List Char) : Option WrittenTime :=
  match l with
  | .rfc3339 => do
    let (t, zone) ← dateTime? cs
    if zone = ['Z'] ∨ zone = ['z'] ∨ isColonOffset zone then some t else none
  | .localIso => do
    let (t, zone) ← dateTime? cs
    if zone = [] ∨ isPlainOffset zone then some t else none
  | .sqlDatetime => do
    let ((year, month, day), cs) ← date? cs
    let ((hour, minute, second), zone) ← clock? (← after? ' ' cs)
    if zone = [] ∨ isSqlZone ((after? ' ' zone).getD zone) then
      some ⟨year, month, day, hour, minute, second⟩
    else none
  | .rfc1123 => do
    if !weekdays.contains (String.ofList (cs.take 3)) then none
    let (day, cs) ← number? 2 (← after? ' ' (← after? ',' (cs.drop 3)))
    let cs ← after? ' ' cs
    let month ← month? (cs.take 3)
    let (year, cs) ← number? 4 (← after? ' ' (cs.drop 3))
    let ((hour, minute, second), cs) ← clock? (← after? ' ' cs)
    let zone ← after? ' ' cs
    if isZoneName zone ∨ isPlainOffset zone then some ⟨year, month, day, hour, minute, second⟩
    else none
  | .date => do
    let ((year, month, day), cs) ← date? cs
    if cs = [] then some ⟨year, month, day, 0, 0, 0⟩ else none

end Timestamp

/-- The characters without one line feed at the end. -/
def withoutFinalNewline (cs : List Char) : List Char :=
  if cs.getLast? = some '\n' then cs.dropLast else cs

/-- Whether a text is a timestamp in a layout. -/
def Layout.accepts (l : Layout) (text : String) : Bool :=
  match Timestamp.written? l (withoutFinalNewline text.toList) with
  | some t => decide t.IsReal
  | none => false

/-- Whether the characters are digits with at most one point among them, and at least one digit. -/
def isUnsignedNumber (cs : List Char) : Bool :=
  let whole := cs.takeWhile isDecimal
  match cs.dropWhile isDecimal with
  | [] => !whole.isEmpty
  | '.' :: part => part.all isDecimal && !(whole.isEmpty && part.isEmpty)
  | _ => false

/-- Whether a text looks like a decimal number: a sign at most, digits, and at most one point. -/
def isNumericText (text : String) : Bool :=
  match withoutFinalNewline text.toList with
  | c :: cs => isUnsignedNumber (if Timestamp.isSign c then cs else c :: cs)
  | [] => false

/-- What a text may mean beyond itself. -/
inductive Meaning where
  | timestamp (layout : Layout)
  | number
  deriving DecidableEq, Repr

/-- The first meaning of a text: a timestamp in one of the layouts, or else a number. -/
def meaning? (layouts : List Layout) (text : String) : Option Meaning :=
  match layouts.find? (·.accepts text) with
  | some l => some (.timestamp l)
  | none => if isNumericText text then some .number else none

end SampleSchema
