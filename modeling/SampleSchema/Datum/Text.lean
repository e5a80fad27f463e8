import SampleSchema.Datum
import SampleSchema.Text.Quoted

/-!
# Values as text

The text of a value where it becomes the name of a field. A text stands for itself and every other
value for the way it is written; inside a tuple a value is shown with quotes around texts and with
the name of its type before a decimal, a date or a time.

An integer of more digits than a literal may have has no text, nor has a value that would show it.
-/

namespace SampleSchema.Datum

open Text

/-- The text of a complex number: the imaginary part alone if the real part is the positive zero. -/
def complexText (re im : Double) : String :=
  let imaginary := im.textWith false ++ "j"
  if re.isZero && !re.isNegative then imaginary
  else
    let plus := if im.isNegative && !im.isNaN then "" else "+"
    "(" ++ re.textWith false ++ plus ++ imaginary ++ ")"

/-- The numbers of a time of day with as many of them as are needed. -/
def clockNumbers (c : Clock) : List Nat :=
  [c.hour, c.minute] ++
    if c.microsecond ≠ 0 then [c.second, c.microsecond]
    else if c.second ≠ 0 then [c.second] else []

/-- An offset shown with the name of its type. -/
def shownOffset (o : Offset) : String :=
  let day : Int := dayLength
  let days := o.microseconds.fdiv day
  let rest := (o.microseconds.fmod day).toNat
  let part (label : String) (n : Nat) : List String :=
    if n = 0 then [] else [label ++ "=" ++ Nat.repr n]
  let parts := (if days = 0 then [] else ["days=" ++ toString days]) ++
    part "seconds" (rest / 1000000) ++ part "microseconds" (rest % 1000000)
  if o.microseconds = 0 then "datetime.timezone.utc"
  else "datetime.timezone(datetime.timedelta(" ++ ", ".intercalate parts ++ "))"

/-- The name of a type with numbers and perhaps an offset in parentheses. -/
def shownTime (type : String) (numbers : List Nat) (offset : Option Offset) : String :=
  let zone := match offset with
    | some o => ["tzinfo=" ++ shownOffset o]
    | none => []
  "datetime." ++ type ++ "(" ++ ", ".intercalate (numbers.map Nat.repr ++ zone) ++ ")"

/-- Shown members of a tuple; a single one is followed by a comma. -/
def tupleText : List String → String
  | [x] => "(" ++ x ++ ",)"
  | xs  => "(" ++ ", ".intercalate xs ++ ")"

mutual

/-- A value as it is shown inside another one. -/
def shown : Datum → String
  | .null      => "None"
  | .bool b    => if b then "True" else "False"
  | .int n     => toString n
  | .float x   => x.text
  | .decimal d => "Decimal('" ++ d.text ++ "')"
  | .string s  => quoted s
  | .date d    => shownTime "date" [d.year, d.month, d.day] none
  | .moment m  =>
    shownTime "datetime" ([m.date.year, m.date.month, m.date.day] ++ clockNumbers m.clock) m.offset
  | .time c o  => shownTime "time" (clockNumbers c) o
  | .list xs   => "[" ++ ", ".intercalate (shownAll xs) ++ "]"
  | .tuple xs  => tupleText (shownAll xs)
  | .set []    => "set()"
  | .set xs    => "\x7b" ++ ", ".intercalate (shownAll xs) ++ "\x7d"
  | .bytes b   => quotedBytes b
  | .complex x y => complexText x y
  | .map es    => "\x7b" ++ ", ".intercalate (shownEntries es) ++ "\x7d"
  | .other _ _ shown => shown

/-- The values of a list as they are shown. -/
def shownAll : List Datum → List String
  | [] => []
  | d :: ds => shown d :: shownAll ds

/-- The entries of a mapping as they are shown. -/
def shownEntries : List (Datum × Datum) → List String
  | [] => []
  | (k, v) :: es => (shown k ++ ": " ++ shown v) :: shownEntries es

end

/-- The text of a value. -/
def text : Datum → String
  | .string s  => s
  | .decimal d => d.text
  | .date d    => d.text
  | .moment m  => m.textWith " "
  | .time c o  => c.text ++ offsetText o
  | .other _ text _ => text
  | d          => shown d

mutual

/-- Whether a value shows an integer of more digits than a literal may have. -/
def showsLongInteger : Datum → Bool
  | .int n => Nat.pow 10 Literal.maxDigits ≤ n.natAbs
  | .list ds | .tuple ds | .set ds => anyShowsLongInteger ds
  | .map es => entriesShowLongInteger es
  | _ => false

/-- Whether one of the values of a list shows an integer of too many digits. -/
def anyShowsLongInteger : List Datum → Bool
  | [] => false
  | d :: ds => showsLongInteger d || anyShowsLongInteger ds

/-- Whether a key or a value of a mapping shows an integer of too many digits. -/
def entriesShowLongInteger : List (Datum × Datum) → Bool
  | [] => false
  | (k, v) :: es => showsLongInteger k || showsLongInteger v || entriesShowLongInteger es

end

end SampleSchema.Datum
