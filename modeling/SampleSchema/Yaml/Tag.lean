import SampleSchema.Calendar
import SampleSchema.Text.Digits

/-!
# Tags

The kind of thing that a node writes. A plain scalar without a tag has the kind that the form of its
text shows: the words for null and for truth values, integers in four bases and in base sixty,
numbers with a point, dates with or without a time, the mark of a merge and the mark of a default
value. Any other scalar without a tag is a text. One line feed at the end of a text does not count.
-/

namespace SampleSchema.Yaml

/-- The tag of a node. -/
inductive Tag where
  | null
  | bool
  | int
  | float
  | binary
  | timestamp
  | orderedMap
  | pairs
  | set
  | text
  | sequence
  | mapping
  /-- The key under which other mappings are merged in. -/
  | merge
  /-- The key of the value that stands for the whole mapping. -/
  | defaultValue
  | other (name : String)
  deriving DecidableEq, Repr

/-- The tag of a full name. -/
def Tag.ofName (name : String) : Tag :=
  match name with
  | "tag:yaml.org,2002:null"      => .null
  | "tag:yaml.org,2002:bool"      => .bool
  | "tag:yaml.org,2002:int"       => .int
  | "tag:yaml.org,2002:float"     => .float
  | "tag:yaml.org,2002:binary"    => .binary
  | "tag:yaml.org,2002:timestamp" => .timestamp
  | "tag:yaml.org,2002:omap"      => .orderedMap
  | "tag:yaml.org,2002:pairs"     => .pairs
  | "tag:yaml.org,2002:set"       => .set
  | "tag:yaml.org,2002:str"       => .text
  | "tag:yaml.org,2002:seq"       => .sequence
  | "tag:yaml.org,2002:map"       => .mapping
  | "tag:yaml.org,2002:merge"     => .merge
  | "tag:yaml.org,2002:value"     => .defaultValue
  | name                          => .other name

/-- The words for null. -/
def nullWords : List String := ["~", "null", "Null", "NULL"]

/-- The words for truth values. -/
def boolWords : List String :=
  ["yes", "Yes", "YES", "no", "No", "NO", "true", "True", "TRUE", "false", "False", "FALSE",
   "on", "On", "ON", "off", "Off", "OFF"]

/-- The words for infinity, after a sign. -/
def infinityWords : List String := [".inf", ".Inf", ".INF"]

/-- The words for what is not a number. -/
def nanWords : List String := [".nan", ".NaN", ".NAN"]

/-- A text after its sign, if it has one. -/
def unsigned : List Char → List Char
  | c :: cs => if c = '+' || c = '-' then cs else c :: cs
  | [] => []

/-- Whether a character is a decimal digit or an underscore. -/
def isDigitOrLine (c : Char) : Bool := c.isDigit || c = '_'

/-- Whether a text is a digit of base sixty: one decimal digit, or two of which the first is at most
five. -/
def isSixtieth : List Char → Bool
  | [c]    => c.isDigit
  | [b, c] => '0' ≤ b && b ≤ '5' && c.isDigit
  | _      => false

/-- The parts of a text between the places where a character stands. -/
def splitAt (mark : Char) : List Char → List (List Char)
  | [] => [[]]
  | c :: cs =>
    if c = mark then [] :: splitAt mark cs
    else match splitAt mark cs with
      | part :: parts => (c :: part) :: parts
      | [] => [[c]]

/-- Whether a text writes an integer. -/
def isInteger (cs : List Char) : Bool :=
  match unsigned cs with
  | '0' :: 'b' :: ds => !ds.isEmpty && ds.all fun c => c = '0' || c = '1' || c = '_'
  | '0' :: 'x' :: ds => !ds.isEmpty && ds.all fun c => (Text.hexValue? c).isSome || c = '_'
  | '0' :: ds => ds.all fun c => '0' ≤ c && c ≤ '7' || c = '_'
  | c :: ds =>
    match splitAt ':' ds with
    | [] => false
    | first :: rest => c.isDigit && first.all isDigitOrLine && rest.all isSixtieth
  | [] => false

/-- Whether a text is an exponent with its sign, or empty. -/
def isExponent : List Char → Bool
  | [] => true
  | e :: sign :: ds =>
    (e = 'e' || e = 'E') && (sign = '+' || sign = '-') && !ds.isEmpty && ds.all Char.isDigit
  | _ => false

/-- Whether a text is what may stand after the point of a number. -/
def isFraction (cs : List Char) : Bool := isExponent (cs.dropWhile isDigitOrLine)

/-- Whether a text writes a number with a point. -/
def isFloat (cs : List Char) : Bool :=
  let body := unsigned cs
  let whole := body.takeWhile (· != '.')
  match body.drop whole.length with
  | [] => false
  | _ :: part =>
    if infinityWords.contains (String.ofList body) then true
    else if nanWords.contains (String.ofList cs) then true
    else match splitAt ':' whole with
      | [[]] => cs.head? = some '.' && part.head?.any Char.isDigit && isFraction part
      | [first] => first.head?.any Char.isDigit && first.all isDigitOrLine && isFraction part
      | first :: rest =>
        first.head?.any Char.isDigit && first.all isDigitOrLine && rest.all isSixtieth &&
          part.all isDigitOrLine
      | [] => false

/-- The parts of a timestamp as they are written. -/
structure TimestampParts where
  year     : List Char
  month    : List Char
  day      : List Char
  /-- Hours, minutes, seconds and the digits of a fraction of a second. -/
  time     : Option (List Char × List Char × List Char × List Char) := none
  /-- The sign, the hours and the minutes of an offset; `Z` has neither. -/
  offset   : Option (Option (Char × List Char × List Char)) := none
  deriving DecidableEq

/-- The number at the start of a text, of at least one digit and at most the given number of them,
and the rest. -/
def digitsUpTo (most : Nat) (cs : List Char) : Option (List Char × List Char) :=
  let ds := (cs.take most).takeWhile Char.isDigit
  if ds.isEmpty then none else some (ds, cs.drop ds.length)

/-- The number of exactly the given number of digits at the start of a text, and the rest. -/
def digitsOf (count : Nat) (cs : List Char) : Option (List Char × List Char) :=
  (digitsUpTo count cs).filter (·.1.length = count)

/-- A text after a character at its start. -/
def after? (mark : Char) : List Char → Option (List Char)
  | [] => none
  | c :: cs => if c = mark then some cs else none

/-- Whether a character is a space or a tab. -/
def isSpaceOrTab (c : Char) : Bool := c = ' ' || c = '\t'

/-- The offset that a text writes. -/
def offsetParts? : List Char → Option (Option (Option (Char × List Char × List Char)))
  | [] => some none
  | cs =>
    match cs.dropWhile isSpaceOrTab with
    | ['Z'] => some (some none)
    | sign :: cs => do
      if sign != '+' && sign != '-' then none
      let (hours, cs) ← digitsUpTo 2 cs
      match cs with
      | [] => return some (some (sign, hours, []))
      | ':' :: cs =>
        let (minutes, cs) ← digitsOf 2 cs
        if cs.isEmpty then return some (some (sign, hours, minutes)) else none
      | _ => none
    | [] => none

/-- The parts of the timestamp that a text writes. -/
def timestampParts? (cs : List Char) : Option TimestampParts := do
  let (year, cs) ← digitsOf 4 cs
  let (month, cs) ← digitsUpTo 2 (← after? '-' cs)
  let (day, cs) ← digitsUpTo 2 (← after? '-' cs)
  match cs with
  | [] => return { year := year, month := month, day := day }
  | c :: rest =>
    let cs ← if c = 'T' || c = 't' then some rest
      else if isSpaceOrTab c then some (rest.dropWhile isSpaceOrTab)
      else none
    let (hour, cs) ← digitsUpTo 2 cs
    let (minute, cs) ← digitsOf 2 (← after? ':' cs)
    let (second, cs) ← digitsOf 2 (← after? ':' cs)
    let (fraction, cs) := match cs with
      | '.' :: cs => (cs.takeWhile Char.isDigit, cs.dropWhile Char.isDigit)
      | cs => ([], cs)
    let offset ← offsetParts? cs
    return { year := year, month := month, day := day,
             time := some (hour, minute, second, fraction), offset := offset }

/-- Whether a text shows itself to be a timestamp; without a time, month and day need two digits. -/
def isTimestamp (cs : List Char) : Bool :=
  (timestampParts? cs).any fun t => t.time.isSome || t.month.length = 2 && t.day.length = 2

/-- A text without one line feed at its end. -/
def withoutLineFeed (cs : List Char) : List Char :=
  if cs.getLast? = some '\n' then cs.dropLast else cs

/-- The tag of a plain scalar without a tag. -/
def Tag.ofPlain (s : String) : Tag :=
  if s.isEmpty then .null
  else
    let cs := withoutLineFeed s.toList
    let word := String.ofList cs
    if boolWords.contains word then .bool
    else if isFloat cs then .float
    else if isInteger cs then .int
    else if word = "<<" then .merge
    else if nullWords.contains word then .null
    else if isTimestamp cs then .timestamp
    else if word = "=" then .defaultValue
    else if word = "!" || word = "&" || word = "*" then .other "tag:yaml.org,2002:yaml"
    else .text

end SampleSchema.Yaml
