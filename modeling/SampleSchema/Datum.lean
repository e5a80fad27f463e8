import SampleSchema.Calendar
import SampleSchema.Number.Decimal
import SampleSchema.Number.Shortest

/-!
# Decoded values

The values that the readers of documents, and programs that hand over values of their own, produce:
what a sample can hold, and besides it decimals, dates and times, tuples, sets, bytes, complex
numbers, mappings whose keys need not be texts, and values of other types, of which only the texts
matter.

Two keys of a mapping are the same when they are equal values: the numbers compare by value across
their types, a truth value counting as 0 or 1, and moments with an offset compare as instants.
`Datum.insert` adds an entry to a mapping, which keeps the place and the key of an equal one.
-/

namespace SampleSchema

/-- A decoded value. -/
inductive Datum where
  | null
  | bool (value : Bool)
  | int (value : Int)
  | float (value : Double)
  | decimal (value : Decimal)
  | string (value : String)
  | date (value : Date)
  | moment (value : Moment)
  | time (clock : Clock) (offset : Option Offset)
  | list (items : List Datum)
  | tuple (items : List Datum)
  | set (items : List Datum)
  | bytes (value : List UInt8)
  | complex (re im : Double)
  | map (entries : List (Datum × Datum))
  /-- A value of another type, with its text and the way it is shown inside another value. -/
  | other (type text shown : String)

namespace Datum

/-- The name of the type of a value. -/
def typeName : Datum → String
  | .null      => "NoneType"
  | .bool _    => "bool"
  | .int _     => "int"
  | .float _   => "float"
  | .decimal _ => "Decimal"
  | .string _  => "str"
  | .date _    => "date"
  | .moment _  => "datetime"
  | .time _ _  => "time"
  | .list _    => "list"
  | .tuple _   => "tuple"
  | .set _     => "set"
  | .bytes _   => "bytes"
  | .complex _ _ => "complex"
  | .map _     => "dict"
  | .other type .. => type

/-- A number as it compares with other numbers. -/
inductive Quantity where
  | ratio (num : Int) (den : Nat)
  | infinity (negative : Bool)
  | notANumber

/-- Whether two quantities are the same number. -/
def Quantity.same : Quantity → Quantity → Bool
  | .ratio a b, .ratio c d => a * d = c * b
  | .infinity s, .infinity t => s = t
  | _, _ => false

/-- The quantity of a double. -/
def quantityOfDouble (x : Double) : Quantity :=
  if x.isNaN then .notANumber
  else if x.isFinite then .ratio x.toRatio.1 x.toRatio.2
  else .infinity x.isNegative

/-- The quantity of a decimal. -/
def quantityOfDecimal : Decimal → Quantity
  | .infinity negative => .infinity negative
  | .nan .. => .notANumber
  | d => match d.toRatio? with
    | some r => .ratio r.1 r.2
    | none => .notANumber

/-- The real and the imaginary part of a value that is a number. -/
def quantity? : Datum → Option (Quantity × Quantity)
  | .bool b       => some (.ratio b.toNat 1, .ratio 0 1)
  | .int n        => some (.ratio n 1, .ratio 0 1)
  | .float x      => some (quantityOfDouble x, .ratio 0 1)
  | .decimal d    => some (quantityOfDecimal d, .ratio 0 1)
  | .complex x y  => some (quantityOfDouble x, quantityOfDouble y)
  | _             => none

/-- The microseconds from midnight in universal time of a time of day with an offset. -/
def timeInstant (c : Clock) (o : Offset) : Int := c.total - o.microseconds

mutual

/-- Whether two values are equal as keys of a mapping. -/
def sameKey : Datum → Datum → Bool
  | .null, .null => true
  | .string s, .string t => s = t
  | .bytes a, .bytes b => a = b
  | .date a, .date b => a = b
  | .moment a, .moment b => a.offset.isSome = b.offset.isSome && a.instant = b.instant
  | .time c none, .time d none => c = d
  | .time c (some o), .time d (some p) => timeInstant c o = timeInstant d p
  | .tuple xs, .tuple ys => sameKeys xs ys
  | a, b => match a.quantity?, b.quantity? with
    | some (p, q), some (r, s) => p.same r && q.same s
    | _, _ => false

/-- Whether two lists of values are equal element by element. -/
def sameKeys : List Datum → List Datum → Bool
  | [], [] => true
  | x :: xs, y :: ys => sameKey x y && sameKeys xs ys
  | _, _ => false

end

/-- The entries of a mapping after giving a key a value: an equal key keeps its place and its form,
and any other key comes last. -/
def insert (key value : Datum) : List (Datum × Datum) → List (Datum × Datum)
  | [] => [(key, value)]
  | (k, v) :: entries =>
    if sameKey k key then (k, value) :: entries else (k, v) :: insert key value entries

mutual

/-- Whether a value can be the key of a mapping or a member of a set. -/
def isHashable : Datum → Bool
  | .list _ | .set _ | .map _ => false
  | .decimal (.nan _ true _) => false
  | .tuple items => areHashable items
  | _ => true

/-- Whether all values of a list can be keys. -/
def areHashable : List Datum → Bool
  | [] => true
  | d :: ds => isHashable d && areHashable ds

end

end Datum

end SampleSchema
