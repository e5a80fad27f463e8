import SampleSchema.Proofs.Layouts

/-!
# Moments and what writes them

`WrittenTime.Occurs` is said of the numbers of a time that name a moment: one of a day of the
calendar and of a time of day.  `Renders t l cs` says that the characters `cs` write the numbers `t`
in the layout `l`: which characters stand between the numbers, how many digits each of them has, and
which zones may follow.  No rendering holds a line feed (`Renders.newline_notMem`).
-/

namespace SampleSchema

open Text

/-! ### Moments -/

namespace WrittenTime

/-- Whether the Gregorian calendar, continued to all years from 1 to 9999, has the day of a written
time. -/
structure HasDay (t : WrittenTime) : Prop where
  year  : 1 ≤ t.year ∧ t.year ≤ 9999
  day   : 1 ≤ t.day
  month : t.month ∈ [1, 3, 5, 7, 8, 10, 12] ∧ t.day ≤ 31 ∨
    t.month ∈ [4, 6, 9, 11] ∧ t.day ≤ 30 ∨
    t.month = 2 ∧ t.day ≤ 28 ∨
    t.month = 2 ∧ t.day = 29 ∧ (4 ∣ t.year ∧ ¬ 100 ∣ t.year ∨ 400 ∣ t.year)

/-- Whether there is a moment of a written time. A minute may have a leap second. -/
structure Occurs (t : WrittenTime) : Prop extends t.HasDay where
  hour   : t.hour ≤ 23
  minute : t.minute ≤ 59
  second : t.second ≤ 60

/-- The leap years of the Gregorian calendar by the rule with 4, 100 and 400. -/
theorem isLeapYear_iff {year : Nat} :
    isLeapYear year = true ↔ 4 ∣ year ∧ ¬ 100 ∣ year ∨ 400 ∣ year := by
  simp only [isLeapYear, Bool.and_eq_true, Bool.or_eq_true, decide_eq_true_eq, bne_iff_ne]
  omega

/-- The days of the calendar, listed by months, are those that are admitted as dates. -/
theorem hasDay_iff (t : WrittenTime) : t.HasDay ↔ IsDate t.year t.month t.day := by
  have hleap := @isLeapYear_iff t.year
  constructor
  · rintro ⟨hyear, hday, hmonth⟩
    simp only [List.mem_cons, List.not_mem_nil, or_false] at hmonth
    refine ⟨hyear, by omega, hday, ?_⟩
    rw [daysInMonth]
    split
    · split
      · omega
      · have : ¬ (4 ∣ t.year ∧ ¬ 100 ∣ t.year ∨ 400 ∣ t.year) := fun h => ‹¬_› (hleap.mpr h)
        omega
    · split <;> omega
  · rintro ⟨hyear, hmonth, hday, hdays⟩
    refine ⟨hyear, hday, ?_⟩
    simp only [List.mem_cons, List.not_mem_nil, or_false]
    rw [daysInMonth] at hdays
    split at hdays
    · split at hdays
      · have := hleap.mp ‹_›
        omega
      · omega
    · split at hdays <;> omega

/-- There is a moment of a written time exactly if its numbers are admitted. -/
theorem occurs_iff (t : WrittenTime) : t.Occurs ↔ t.IsReal := by
  have hclock : (t.hour ≤ 23 ∧ t.minute ≤ 59 ∧ t.second ≤ 60) ↔
      IsClock t.hour t.minute (if t.second = 60 then 59 else t.second) 0 := by
    rw [IsClock]
    split <;> omega
  rw [IsReal, ← hasDay_iff, ← hclock]
  exact ⟨fun h => ⟨h.toHasDay, h.hour, h.minute, h.second⟩, fun ⟨h, h₁, h₂, h₃⟩ => ⟨h, h₁, h₂, h₃⟩⟩

end WrittenTime

namespace Timestamp

/-! ### Renderings -/

/-- Whether characters write a number with `n` decimal digits, each of some script. -/
def WritesNumber (n value : Nat) (cs : List Char) : Prop :=
  ∃ ds : List Nat, ds.length = n ∧ cs.map decimalValue? = ds.map some ∧ ofDigits ds = value

/-- Whether characters are `n` decimal digits, each of some script. -/
def AreDigits (n : Nat) (cs : List Char) : Prop :=
  cs.length = n ∧ ∀ c ∈ cs, isDecimal c = true

/-- A date: four, two and two digits, joined by hyphens. -/
inductive WritesDate (year month day : Nat) : List Char → Prop where
  | mk {y m d : List Char} : WritesNumber 4 year y → WritesNumber 2 month m → WritesNumber 2 day d →
      WritesDate year month day (y ++ '-' :: (m ++ '-' :: d))

/-- A fraction of a second, which may be missing. -/
inductive WritesFraction : List Char → Prop where
  | none : WritesFraction []
  | digits {n : Nat} {ds : List Char} : 1 ≤ n → n ≤ 9 → AreDigits n ds → WritesFraction ('.' :: ds)

/-- A time of day: three pairs of digits, joined by colons, and perhaps a fraction. -/
inductive WritesClock (hour minute second : Nat) : List Char → Prop where
  | mk {h m s f : List Char} : WritesNumber 2 hour h → WritesNumber 2 minute m →
      WritesNumber 2 second s → WritesFraction f →
      WritesClock hour minute second (h ++ ':' :: (m ++ ':' :: (s ++ f)))

/-- An offset of hours and minutes: a sign and two pairs of digits, with a separator between. -/
inductive WritesOffset (separator : List Char) : List Char → Prop where
  | mk {sign : Char} {h m : List Char} : sign ∈ ['+', '-'] → AreDigits 2 h → AreDigits 2 m →
      WritesOffset separator (sign :: (h ++ separator ++ m))

/-- An offset of hours: a sign and a pair of digits. -/
inductive WritesHours : List Char → Prop where
  | mk {sign : Char} {h : List Char} : sign ∈ ['+', '-'] → AreDigits 2 h → WritesHours (sign :: h)

/-- The zone of the most specific layout: the letter Z in either case, or an offset. -/
def WritesZone (cs : List Char) : Prop := cs = ['Z'] ∨ cs = ['z'] ∨ WritesOffset [':'] cs

/-- The zone of a local time: none, or an offset without a colon. -/
def WritesLocalZone (cs : List Char) : Prop := cs = [] ∨ WritesOffset [] cs

/-- The zone of the layout for databases, without the space that may stand before it. -/
def WritesSqlZone (cs : List Char) : Prop :=
  cs = ['Z'] ∨ cs = ['U', 'T', 'C'] ∨ WritesHours cs ∨ WritesOffset [':'] cs ∨ WritesOffset [] cs

/-- A named zone, three or four capital letters, or an offset. -/
def WritesNamedZone (cs : List Char) : Prop :=
  (cs.length = 3 ∨ cs.length = 4) ∧ (∀ c ∈ cs, 'A' ≤ c ∧ c ≤ 'Z') ∨ WritesOffset [] cs

/-- The name of a month, with its letters in either case. -/
def WritesMonth (month : Nat) (cs : List Char) : Prop :=
  ∃ i, month = i + 1 ∧ months[i]? = some (String.ofList (cs.map Char.toLower))

/-- Whether characters write the numbers of a time in a layout. A date alone is its midnight. -/
inductive Renders (t : WrittenTime) : Layout → List Char → Prop where
  | rfc3339 {date clock zone : List Char} {letter : Char} :
      WritesDate t.year t.month t.day date → letter ∈ ['T', 't'] →
      WritesClock t.hour t.minute t.second clock → WritesZone zone →
      Renders t .rfc3339 (date ++ letter :: (clock ++ zone))
  | localIso {date clock zone : List Char} {letter : Char} :
      WritesDate t.year t.month t.day date → letter ∈ ['T', 't'] →
      WritesClock t.hour t.minute t.second clock → WritesLocalZone zone →
      Renders t .localIso (date ++ letter :: (clock ++ zone))
  | sqlDatetime {date clock : List Char} :
      WritesDate t.year t.month t.day date → WritesClock t.hour t.minute t.second clock →
      Renders t .sqlDatetime (date ++ ' ' :: clock)
  | sqlDatetimeWithZone {date clock space zone : List Char} :
      WritesDate t.year t.month t.day date → WritesClock t.hour t.minute t.second clock →
      space ∈ [[], [' ']] → WritesSqlZone zone →
      Renders t .sqlDatetime (date ++ ' ' :: (clock ++ (space ++ zone)))
  | rfc1123 {weekday : String} {day month year clock zone : List Char} :
      weekday ∈ weekdays → WritesNumber 2 t.day day → WritesMonth t.month month →
      WritesNumber 4 t.year year → WritesClock t.hour t.minute t.second clock →
      WritesNamedZone zone →
      Renders t .rfc1123 (weekday.toList ++ ',' :: ' ' :: (day ++ ' ' :: (month ++ ' ' :: (year ++
        ' ' :: (clock ++ ' ' :: zone)))))
  | date {date : List Char} :
      WritesDate t.year t.month t.day date → t.hour = 0 → t.minute = 0 → t.second = 0 →
      Renders t .date date

/-! ### Renderings hold no line feed -/

/-- What writes a number of `n` digits is `n` decimal digits. -/
theorem WritesNumber.areDigits {n value : Nat} {cs : List Char} (h : WritesNumber n value cs) :
    AreDigits n cs := by
  obtain ⟨ds, rfl, hds, -⟩ := h
  obtain ⟨hlen, hall⟩ := isDecimal_of_map_decimalValue? hds
  exact ⟨hlen.symm, hall⟩

theorem WritesNumber.length {n value : Nat} {cs : List Char} (h : WritesNumber n value cs) :
    cs.length = n :=
  h.areDigits.1

/-- No line feed is a digit. -/
theorem AreDigits.newline_notMem {n : Nat} {cs : List Char} (h : AreDigits n cs) : '\n' ∉ cs :=
  fun hmem => by cases h.2 _ hmem

theorem WritesDate.newline_notMem {year month day : Nat} {cs : List Char}
    (h : WritesDate year month day cs) : '\n' ∉ cs := by
  obtain ⟨hy, hm, hd⟩ := h
  simp [hy.areDigits.newline_notMem, hm.areDigits.newline_notMem, hd.areDigits.newline_notMem]

theorem WritesFraction.newline_notMem {cs : List Char} (h : WritesFraction cs) : '\n' ∉ cs := by
  cases h with
  | none => exact List.not_mem_nil
  | digits _ _ hds => simp [hds.newline_notMem]

theorem WritesClock.newline_notMem {hour minute second : Nat} {cs : List Char}
    (h : WritesClock hour minute second cs) : '\n' ∉ cs := by
  obtain ⟨hh, hm, hs, hf⟩ := h
  simp [hh.areDigits.newline_notMem, hm.areDigits.newline_notMem, hs.areDigits.newline_notMem,
    hf.newline_notMem]

/-- No line feed is a sign. -/
theorem newline_notMem_of_sign {sign : Char} {cs : List Char} (h : sign ∈ ['+', '-'])
    (hcs : '\n' ∉ cs) : '\n' ∉ sign :: cs := by
  rw [List.mem_cons, not_or]
  refine ⟨?_, hcs⟩
  rintro rfl
  simp at h

/-- An offset holds no line feed, unless its separator does. -/
theorem WritesOffset.newline_notMem {separator cs : List Char} (hsep : '\n' ∉ separator)
    (h : WritesOffset separator cs) : '\n' ∉ cs := by
  obtain ⟨hsign, hh, hm⟩ := h
  exact newline_notMem_of_sign hsign (by simp [hh.newline_notMem, hsep, hm.newline_notMem])

theorem WritesZone.newline_notMem {cs : List Char} (h : WritesZone cs) : '\n' ∉ cs := by
  rcases h with rfl | rfl | h
  · decide
  · decide
  · exact h.newline_notMem (by decide)

theorem WritesLocalZone.newline_notMem {cs : List Char} (h : WritesLocalZone cs) : '\n' ∉ cs := by
  rcases h with rfl | h
  · decide
  · exact h.newline_notMem (by decide)

theorem WritesSqlZone.newline_notMem {cs : List Char} (h : WritesSqlZone cs) : '\n' ∉ cs := by
  rcases h with rfl | rfl | ⟨hsign, hh⟩ | h | h
  · decide
  · decide
  · exact newline_notMem_of_sign hsign hh.newline_notMem
  · exact h.newline_notMem (by decide)
  · exact h.newline_notMem (by decide)

theorem WritesNamedZone.newline_notMem {cs : List Char} (h : WritesNamedZone cs) : '\n' ∉ cs := by
  rcases h with ⟨-, hcapital⟩ | h
  · exact fun hmem => absurd (hcapital _ hmem) (by decide)
  · exact h.newline_notMem (by decide)

/-- No name of a month holds a line feed, with its letters in either case. -/
theorem WritesMonth.newline_notMem {month : Nat} {cs : List Char} (h : WritesMonth month cs) :
    '\n' ∉ cs := by
  obtain ⟨i, -, hi⟩ := h
  have hnames : ∀ m ∈ months, '\n' ∉ m.toList := by decide
  have hname := hnames _ (List.mem_of_getElem? hi)
  rw [String.toList_ofList] at hname
  exact fun hmem => hname (List.mem_map.mpr ⟨'\n', hmem, by decide⟩)

theorem newline_notMem_of_mem_weekdays : ∀ w ∈ weekdays, '\n' ∉ w.toList := by decide

/-- No rendering of a time holds a line feed, so that one at its end is recognized. -/
theorem Renders.newline_notMem {t : WrittenTime} {l : Layout} {cs : List Char}
    (h : Renders t l cs) : '\n' ∉ cs := by
  have hletter : ∀ {letter : Char}, letter ∈ ['T', 't'] → '\n' ≠ letter := by
    rintro _ h rfl
    simp at h
  cases h with
  | rfc3339 hdate hT hclock hzone =>
      simp [hdate.newline_notMem, hletter hT, hclock.newline_notMem, hzone.newline_notMem]
  | localIso hdate hT hclock hzone =>
      simp [hdate.newline_notMem, hletter hT, hclock.newline_notMem, hzone.newline_notMem]
  | sqlDatetime hdate hclock => simp [hdate.newline_notMem, hclock.newline_notMem]
  | @sqlDatetimeWithZone _ _ space _ hdate hclock hspace hzone =>
      have hblank : ∀ s ∈ [[], [' ']], '\n' ∉ s := by decide
      simp [hdate.newline_notMem, hclock.newline_notMem, hblank space hspace, hzone.newline_notMem]
  | rfc1123 hweekday hday hmonth hyear hclock hzone =>
      simp [newline_notMem_of_mem_weekdays _ hweekday, hday.areDigits.newline_notMem,
        hmonth.newline_notMem, hyear.areDigits.newline_notMem, hclock.newline_notMem,
        hzone.newline_notMem]
  | date hdate => exact hdate.newline_notMem


end Timestamp

end SampleSchema
