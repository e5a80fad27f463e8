import SampleSchema.Text.Digits

/-!
# Dates and times of day

The proleptic Gregorian calendar of the years 1 to 9999, times of day with microseconds, and offsets
from universal time of less than a day. A value of one of these types is always a real date, time or
offset: the constructors that check are `Date.of?`, `Clock.of?` and `Offset.of?`.

The text of a value is its ISO 8601 form in the extended format, without a fraction when the
microseconds are zero.
-/

namespace SampleSchema

open Text

/-- Whether February has 29 days. -/
def isLeapYear (year : Nat) : Bool := year % 4 = 0 && (year % 100 != 0 || year % 400 = 0)

/-- The number of days of a month. -/
def daysInMonth (year month : Nat) : Nat :=
  if month = 2 then if isLeapYear year then 29 else 28
  else if month = 4 ∨ month = 6 ∨ month = 9 ∨ month = 11 then 30
  else 31

/-- The numbers that name a date. -/
def IsDate (year month day : Nat) : Prop :=
  (1 ≤ year ∧ year ≤ 9999) ∧ (1 ≤ month ∧ month ≤ 12) ∧ 1 ≤ day ∧ day ≤ daysInMonth year month

instance (year month day : Nat) : Decidable (IsDate year month day) :=
  inferInstanceAs (Decidable (_ ∧ _ ∧ _ ∧ _))

/-- A date. -/
structure Date where
  year  : Nat
  month : Nat
  day   : Nat
  valid : IsDate year month day
  deriving DecidableEq

/-- The date with the given numbers, if there is one. -/
def Date.of? (year month day : Nat) : Option Date :=
  if h : IsDate year month day then some ⟨year, month, day, h⟩ else none

/-- The text of a date. -/
def Date.text (d : Date) : String :=
  decimal 4 d.year ++ "-" ++ decimal 2 d.month ++ "-" ++ decimal 2 d.day

/-- The days of all years before the given one. -/
def daysBeforeYear (year : Nat) : Nat :=
  let y := year - 1
  365 * y + y / 4 - y / 100 + y / 400

/-- The number of a date, counted from the first day of year 1. -/
def Date.ordinal (d : Date) : Nat :=
  daysBeforeYear d.year + ((List.range (d.month - 1)).map fun m => daysInMonth d.year (m + 1)).foldl (· + ·) 0 +
    d.day

/-- The numbers that name a time of day. -/
def IsClock (hour minute second microsecond : Nat) : Prop :=
  hour ≤ 23 ∧ minute ≤ 59 ∧ second ≤ 59 ∧ microsecond ≤ 999999

instance (hour minute second microsecond : Nat) :
    Decidable (IsClock hour minute second microsecond) :=
  inferInstanceAs (Decidable (_ ∧ _ ∧ _ ∧ _))

/-- A time of day. -/
structure Clock where
  hour        : Nat
  minute      : Nat
  second      : Nat
  microsecond : Nat
  valid       : IsClock hour minute second microsecond
  deriving DecidableEq

/-- The time of day with the given numbers, if there is one. -/
def Clock.of? (hour minute second microsecond : Nat) : Option Clock :=
  if h : IsClock hour minute second microsecond then some ⟨hour, minute, second, microsecond, h⟩
  else none

/-- Midnight. -/
def Clock.midnight : Clock := ⟨0, 0, 0, 0, by decide⟩

/-- The text of a time of day. -/
def Clock.text (c : Clock) : String :=
  decimal 2 c.hour ++ ":" ++ decimal 2 c.minute ++ ":" ++ decimal 2 c.second ++
    if c.microsecond = 0 then "" else "." ++ decimal 6 c.microsecond

/-- The microseconds since midnight. -/
def Clock.total (c : Clock) : Nat :=
  ((c.hour * 60 + c.minute) * 60 + c.second) * 1000000 + c.microsecond

/-- The microseconds of a day. -/
def dayLength : Nat := 24 * 60 * 60 * 1000000

/-- An offset from universal time, in microseconds. -/
structure Offset where
  microseconds : Int
  valid        : microseconds.natAbs < dayLength
  deriving DecidableEq

/-- The offset of the given number of microseconds, if it is less than a day. -/
def Offset.of? (microseconds : Int) : Option Offset :=
  if h : microseconds.natAbs < dayLength then some ⟨microseconds, h⟩ else none

/-- Universal time itself. -/
def Offset.universal : Offset := ⟨0, by decide⟩

/-- The text of an offset: hours and minutes, and seconds where there are any. -/
def Offset.text (o : Offset) : String :=
  let n := o.microseconds.natAbs
  let micros := n % 1000000
  let seconds := n / 1000000
  (if o.microseconds < 0 then "-" else "+") ++ decimal 2 (seconds / 3600) ++ ":" ++
    decimal 2 (seconds / 60 % 60) ++
    (if seconds % 60 = 0 ∧ micros = 0 then "" else ":" ++ decimal 2 (seconds % 60)) ++
    if micros = 0 then "" else "." ++ decimal 6 micros

/-- A date with a time of day, and the offset of that clock when it is known. -/
structure Moment where
  date   : Date
  clock  : Clock
  offset : Option Offset
  deriving DecidableEq

/-- The text of an offset that may be missing. -/
def offsetText (o : Option Offset) : String := (o.map Offset.text).getD ""

/-- The text of a moment, with a separator between date and time. -/
def Moment.textWith (separator : String) (m : Moment) : String :=
  m.date.text ++ separator ++ m.clock.text ++ offsetText m.offset

/-- The text of a moment. -/
def Moment.text (m : Moment) : String := m.textWith "T"

/-- The microseconds from the start of year 1 in universal time, taking a missing offset as zero. -/
def Moment.instant (m : Moment) : Int :=
  m.date.ordinal * dayLength + m.clock.total - ((m.offset.map Offset.microseconds).getD 0)

end SampleSchema
