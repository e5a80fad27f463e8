import Mathlib.Algebra.Group.Nat.Defs
import SampleSchema.Proofs.Nesting
import SampleSchema.Proofs.Renderings
import SampleSchema.Proofs.UniformValues
import SampleSchema.Yaml.Scalar

/-!
# Dates and times survive as timestamps

A date or a moment is decoded to its ISO 8601 text, and that is a rendering of the same numbers in the
layout that belongs to the value (`Datum.WritesTime`): a date in the layout for dates, a moment
without an offset in the layout for local times, and one with an offset of whole minutes in the most
specific layout.  All that documents write as timestamps is of these three kinds.

So such values are never mistaken for other texts, alone or together, and there is nothing to record
(`timestamps_of_writesTime`).
-/

namespace SampleSchema

open Text

namespace Timestamp

/-! ### Padded numbers -/

/-- A digit has the value that it was written for. -/
theorem decimalValue?_digitChar {d : Nat} (h : d < 10) : decimalValue? d.digitChar = some d :=
  (by decide : ∀ d < 10, decimalValue? (Nat.digitChar d) = some d) d h

/-- One more digit makes ten times the number and the digit. -/
theorem WritesNumber.concat {n value d : Nat} {cs : List Char} {c : Char}
    (h : WritesNumber n value cs) (hc : decimalValue? c = some d) :
    WritesNumber (n + 1) (10 * value + d) (cs ++ [c]) := by
  obtain ⟨ds, rfl, hds, rfl⟩ := h
  refine ⟨ds ++ [d], by simp, by simp [hds, hc], ?_⟩
  rw [ofDigits, List.foldl_append]
  rfl

/-- A zero in front does not count. -/
theorem WritesNumber.cons_zero {n value : Nat} {cs : List Char} (h : WritesNumber n value cs) :
    WritesNumber (n + 1) value ('0' :: cs) := by
  obtain ⟨ds, rfl, hds, rfl⟩ := h
  have hzero : decimalValue? '0' = some 0 := by decide
  exact ⟨0 :: ds, rfl, by rw [List.map_cons, List.map_cons, hzero, hds], rfl⟩

/-- Zeros in front of a number do not change it. -/
theorem WritesNumber.zeros {n value : Nat} {cs : List Char} (h : WritesNumber n value cs) :
    ∀ m : Nat, WritesNumber (m + n) value (List.replicate m '0' ++ cs)
  | 0 => by simpa using h
  | m + 1 => by
      rw [Nat.add_right_comm, List.replicate_succ, List.cons_append]
      exact (h.zeros m).cons_zero

/-- The decimal digits of a number write it. -/
theorem writesNumber_toDigits (n : Nat) :
    WritesNumber (Nat.toDigits 10 n).length n (Nat.toDigits 10 n) := by
  induction n using Nat.strongRecOn with
  | ind n ih =>
      rw [Nat.toDigits_eq_if (by decide)]
      split
      · rename_i hn
        exact ⟨[n], rfl, by rw [List.map_singleton, decimalValue?_digitChar hn]; rfl,
          by simp [ofDigits]⟩
      · -- the last digit comes off, and the digits before it write the tenth part
        have hlast : decimalValue? (n % 10).digitChar = some (n % 10) :=
          decimalValue?_digitChar (Nat.mod_lt n (by decide))
        have h := (ih (n / 10) (by omega)).concat hlast
        rwa [Nat.div_add_mod, ← List.length_concat, List.concat_eq_append] at h

/-- A number of few digits is written with exactly the digits that are asked for. -/
theorem writesNumber_decimal {width n : Nat} (hwidth : 0 < width) (hn : n < 10 ^ width) :
    WritesNumber width n (decimal width n).toList := by
  have hlength : (Nat.repr n).length = (Nat.toDigits 10 n).length := by
    rw [← String.length_toList, Nat.toList_repr]
  have hle : (Nat.toDigits 10 n).length ≤ width :=
    (Nat.length_toDigits_le_iff (by decide) hwidth).mpr hn
  have h := (writesNumber_toDigits n).zeros (width - (Nat.toDigits 10 n).length)
  rw [Nat.sub_add_cancel hle] at h
  rwa [decimal, padLeft, String.toList_append, String.toList_ofList, Nat.toList_repr, hlength]

/-! ### Texts of dates and times -/

theorem daysInMonth_le (year month : Nat) : daysInMonth year month ≤ 31 := by
  rw [daysInMonth]
  split
  · split <;> decide
  · split <;> decide

/-- The text of a date writes the date. -/
theorem writesDate_text (d : Date) : WritesDate d.year d.month d.day d.text.toList := by
  obtain ⟨year, month, day, hyear, hmonth, hday⟩ := d
  have hlast := Nat.le_trans hday.2 (daysInMonth_le year month)
  have h : WritesDate year month day ((decimal 4 year).toList ++ '-' ::
      ((decimal 2 month).toList ++ '-' :: (decimal 2 day).toList)) :=
    .mk (writesNumber_decimal (by decide) (by omega)) (writesNumber_decimal (by decide) (by omega))
      (writesNumber_decimal (by decide) (by omega))
  simpa [Date.text, String.toList_append] using h

/-- The text of a time of day writes it. -/
theorem writesClock_text (c : Clock) : WritesClock c.hour c.minute c.second c.text.toList := by
  obtain ⟨hour, minute, second, microsecond, hhour, hminute, hsecond, hmicro⟩ := c
  have hfraction : WritesFraction
      (if microsecond = 0 then "" else "." ++ decimal 6 microsecond).toList := by
    split
    · exact .none
    · have hdigits : WritesNumber 6 microsecond (decimal 6 microsecond).toList :=
        writesNumber_decimal (by decide) (by omega)
      rw [String.toList_append]
      exact .digits (by decide) (by decide) hdigits.areDigits
  have h : WritesClock hour minute second ((decimal 2 hour).toList ++ ':' ::
      ((decimal 2 minute).toList ++ ':' :: ((decimal 2 second).toList ++
        (if microsecond = 0 then "" else "." ++ decimal 6 microsecond).toList))) :=
    .mk (writesNumber_decimal (by decide) (by omega)) (writesNumber_decimal (by decide) (by omega))
      (writesNumber_decimal (by decide) (by omega)) hfraction
  simpa [Clock.text, String.toList_append] using h

/-- The microseconds of a minute. -/
def minuteLength : Nat := 60 * 1000000

/-- An offset of whole minutes is written without seconds. -/
theorem writesOffset_text {o : Offset} (h : (minuteLength : Int) ∣ o.microseconds) :
    WritesOffset [':'] o.text.toList := by
  obtain ⟨micros, hmicros⟩ := o
  have hday : micros.natAbs < 24 * 60 * 60 * 1000000 := hmicros
  have h : (60000000 : Int) ∣ micros := h
  have hminutes : micros.natAbs % 1000000 = 0 ∧ micros.natAbs / 1000000 % 60 = 0 := by omega
  have h : WritesOffset [':'] ((if micros < 0 then '-' else '+') ::
      ((decimal 2 (micros.natAbs / 1000000 / 3600)).toList ++ [':'] ++
        (decimal 2 (micros.natAbs / 1000000 / 60 % 60)).toList)) := by
    refine .mk ?_ (writesNumber_decimal (by decide) (by omega)).areDigits
      (writesNumber_decimal (by decide) (by omega)).areDigits
    split <;> simp
  have hsign : (if micros < 0 then "-" else "+").toList = [if micros < 0 then '-' else '+'] := by
    split <;> rfl
  simpa [Offset.text, String.toList_append, hminutes, hsign] using h

end Timestamp

open Timestamp

/-! ### Values -/

/-- Whether a value is a date or a moment that is a timestamp in a layout: a moment with an offset
only where that is of whole minutes. -/
inductive Datum.WritesTime : Datum → Layout → Prop where
  | date {d : Date} : WritesTime (.date d) .date
  | unzoned {m : Moment} : m.offset = none → WritesTime (.moment m) .localIso
  | zoned {m : Moment} {o : Offset} : m.offset = some o →
      (minuteLength : Int) ∣ o.microseconds → WritesTime (.moment m) .rfc3339

/-- The numbers of a moment. -/
def Moment.written (m : Moment) : WrittenTime :=
  ⟨m.date.year, m.date.month, m.date.day, m.clock.hour, m.clock.minute, m.clock.second⟩

/-- There is a moment of what a moment writes. -/
theorem Moment.occurs_written (m : Moment) : m.written.Occurs := by
  obtain ⟨date, ⟨hour, minute, second, microsecond, hhour, hminute, hsecond, hmicro⟩, offset⟩ := m
  rw [WrittenTime.occurs_iff]
  have hleap : (if second = 60 then 59 else second) = second := if_neg (by omega)
  exact ⟨date.valid, hhour, hminute, hleap.symm ▸ hsecond, by omega⟩

/-- **The text of a moment renders it in its layout.** -/
theorem Moment.renders_text {m : Moment} {l : Layout} (h : (Datum.moment m).WritesTime l) :
    Renders m.written l m.text.toList := by
  have htext : m.text.toList = m.date.text.toList ++ 'T' ::
      (m.clock.text.toList ++ (offsetText m.offset).toList) := by
    simp [Moment.text, Moment.textWith, String.toList_append]
  rw [htext]
  cases h with
  | unzoned ho =>
      rw [ho]
      exact .localIso (writesDate_text _) (by simp) (writesClock_text _) (.inl rfl)
  | zoned ho hminutes =>
      rw [ho]
      exact .rfc3339 (writesDate_text _) (by simp) (writesClock_text _)
        (.inr (.inr (writesOffset_text hminutes)))

/-- Such a value is no collection, so it needs no room. -/
theorem Datum.WritesTime.decodeWithin_eq {d : Datum} {l : Layout} (h : d.WritesTime l) (limit : Nat) :
    d.decodeWithin limit = d.decode :=
  decodeWithin_of_leaf (by cases h <;> rfl) limit

/-- Such a value is decoded to a text that is a timestamp in its layout. -/
theorem Datum.WritesTime.decode {d : Datum} {l : Layout} (h : d.WritesTime l) :
    ∃ text, d.decode = .ok (.string text) ∧ meaning? Layout.all text = some (.timestamp l) := by
  cases hd : d with
  | date d' =>
      subst hd
      cases h
      refine ⟨d'.text, rfl, meaning?_eq_timestamp_iff.mpr ⟨Layout.mem_all _, ?_⟩⟩
      have hrenders : Renders ⟨d'.year, d'.month, d'.day, 0, 0, 0⟩ .date d'.text.toList :=
        .date (writesDate_text d') rfl rfl rfl
      refine (accepts_iff_of_renders (.inl rfl) hrenders _).mpr ⟨rfl, ?_⟩
      have hmidnight : IsClock 0 0 (if 0 = 60 then 59 else 0) 0 := by decide
      exact (WrittenTime.occurs_iff _).mpr ⟨d'.valid, hmidnight⟩
  | moment m =>
      subst hd
      refine ⟨m.text, rfl, meaning?_eq_timestamp_iff.mpr ⟨Layout.mem_all _, ?_⟩⟩
      exact (accepts_iff_of_renders (.inl rfl) (Moment.renders_text h) _).mpr
        ⟨rfl, m.occurs_written⟩
  | _ => subst hd; cases h

/-! ### What documents write -/

namespace Yaml

/-- An offset has the microseconds that it was made from. -/
theorem microseconds_of_of? {n : Int} {offset : Offset} (h : Offset.of? n = some offset) :
    offset.microseconds = n := by
  rw [Offset.of?] at h
  split at h <;> cases h
  rfl

theorem dvd_of_offsetOf? {o : Option (Char × List Char × List Char)} {offset : Offset}
    (h : offsetOf? o = some offset) : (minuteLength : Int) ∣ offset.microseconds := by
  cases o with
  | none =>
      cases h
      exact Int.dvd_zero _
  | some o =>
      obtain ⟨sign, hours, minutes⟩ := o
      rw [microseconds_of_of? h, minuteLength]
      split <;> omega

theorem eq_some_of_orBad {α : Type} {x : Option α} {a : α} (h : orBad x = .ok a) : x = some a := by
  cases x with
  | none => cases h
  | some b => exact congrArg some (Except.ok.inj h)

/-- All that is written as a timestamp is a date or a moment, with an offset of whole minutes if it
has one. -/
theorem writesTime_of_timestampValue {s : String} {d : Datum} (h : timestampValue s = .ok d) :
    ∃ l, d.WritesTime l := by
  rw [timestampValue] at h
  split at h
  · cases h
  · rename_i t _
    obtain ⟨date, -, h⟩ := ok_of_bind h
    split at h
    · cases h
      exact ⟨_, .date⟩
    · obtain ⟨clock, -, h⟩ := ok_of_bind h
      obtain ⟨offset, hoffset, h⟩ := ok_of_bind h
      cases h
      cases ho : t.offset with
      | none =>
          rw [ho] at hoffset
          cases hoffset
          exact ⟨_, .unzoned rfl⟩
      | some o =>
          rw [ho] at hoffset
          obtain ⟨offset', ho', hoffset⟩ := ok_of_bind hoffset
          cases hoffset
          exact ⟨_, .zoned rfl (dvd_of_offsetOf? (eq_some_of_orBad ho'))⟩

end Yaml

/-! ### Values together -/

/-- Whether a sample is a text that is a timestamp. -/
def Sample.IsTimestamp (v : Sample) : Prop :=
  ∃ text l, v = .string text ∧ meaning? Layout.all text = some (.timestamp l)

theorem Sample.IsTimestamp.hasDistinctNames {v : Sample} (h : v.IsTimestamp) :
    v.hasDistinctNames = true := by
  obtain ⟨text, l, rfl, -⟩ := h
  rfl

namespace Options

variable {o : Options} (ho : o.layouts = Layout.all)
include ho

theorem observe_of_isTimestamp {v : Sample} (hv : v.IsTimestamp) :
    o.observe v = .string .timestamp := by
  obtain ⟨text, l, rfl, htext⟩ := hv
  rw [observe, textPart, ho, htext]

theorem infer_of_isTimestamp {v : Sample} (hv : v.IsTimestamp) : o.infer v = .timestamp := by
  obtain ⟨text, l, rfl, htext⟩ := hv
  rw [infer, inferText, ho, htext]

variable {vs : List Sample} (hne : vs ≠ []) (hvs : ∀ v ∈ vs, v.IsTimestamp)
include hne hvs

theorem summary_of_isTimestamp : Observation.summary (vs.map o.observe) = .timestamp := by
  refine Observation.summary_of_timestamps (fun h => hne (List.map_eq_nil_iff.mp h)) fun x hx => ?_
  obtain ⟨v, hv, rfl⟩ := List.mem_map.mp hx
  exact observe_of_isTimestamp ho (hvs v hv)

/-- An array of timestamps keeps them, and there is nothing to record. -/
theorem infer_array_of_isTimestamp (path : String) :
    o.infer (.array vs) = .array .timestamp false ∧ o.conflicts path (.array vs) = [] := by
  have hnames : (Sample.array vs).hasDistinctNames = true :=
    allHaveDistinctNames_iff.mpr fun v hv => (hvs v hv).hasDistinctNames
  have hinfer : o.infer (.array vs) = .array .timestamp false := by
    rw [o.infer_eq_summary hnames, observe, Observation.summary_array, observeAll_eq_map,
      if_neg fun h => hne (List.map_eq_nil_iff.mp h), summary_of_isTimestamp ho hne hvs]
  have haccounts := o.accounts_infer hnames path
  rw [hinfer] at haccounts
  exact ⟨hinfer, haccounts.eq_nil⟩

end Options

/-- **Dates and times survive.**  A date, and a moment without an offset or with one of whole minutes,
is decoded to a text that is a timestamp in the layout of its kind.  Any number of such values are
timestamps together, as samples of a run or as the items of a list or a tuple, and nothing is recorded.
Whatever a document writes as a timestamp is such a value. -/
theorem timestamps_of_writesTime :
    (∀ (d : Datum) (l : Layout), d.WritesTime l → ∃ text, d.decode = .ok (.string text) ∧
      (∀ limit, d.decodeWithin limit = .ok (.string text)) ∧
      meaning? Layout.all text = some (.timestamp l) ∧
      ∀ o : Options, o.layouts = Layout.all → o.infer (.string text) = .timestamp) ∧
    (∀ ds : List Datum, ds ≠ [] → (∀ d ∈ ds, ∃ l, d.WritesTime l) → ∃ vs : List Sample,
      ds.mapM Datum.decode = .ok vs ∧ (Datum.list ds).decode = .ok (.array vs) ∧
      (Datum.tuple ds).decode = .ok (.array vs) ∧
      (∀ limit, (Datum.list ds).decodeWithin (limit + 1) = .ok (.array vs)) ∧
      (∀ limit, (Datum.tuple ds).decodeWithin (limit + 1) = .ok (.array vs)) ∧
      ∀ o : Options, o.layouts = Layout.all →
        (∀ path, o.infer (.array vs) = .array .timestamp false ∧
          o.conflicts path (.array vs) = []) ∧
        ∀ (s : Settings) (r : RunRequest), s.optionsFor r = .ok o → 0 ≤ r.maxWorkers.getD 0 →
          s.run r vs = .ok ⟨⟨.timestamp, []⟩, .timestamp, [], ds.length⟩) ∧
    ∀ (text : String) (d : Datum), Yaml.scalarValue? .timestamp text = some (.ok d) →
      ∃ l, d.WritesTime l := by
  refine ⟨fun d l h => ?_, fun ds hne hds => ?_, fun text d h => ?_⟩
  · obtain ⟨text, hd, htext⟩ := h.decode
    exact ⟨text, hd, fun limit => by rw [h.decodeWithin_eq, hd], htext,
      fun o ho => o.infer_of_isTimestamp ho ⟨text, l, rfl, htext⟩⟩
  · have hall : ∀ d ∈ ds, ∃ v, d.decode = .ok v ∧ v.IsTimestamp := fun d hd => by
      obtain ⟨l, hl⟩ := hds d hd
      obtain ⟨text, htext, hmeaning⟩ := hl.decode
      exact ⟨_, htext, text, l, rfl, hmeaning⟩
    obtain ⟨vs, hvs, hlength, htimes⟩ := exists_mapM_ok hall
    have hsamples : Datum.decodeAll ds = .ok vs := (Datum.decodeAll_eq_mapM ds).trans hvs
    have hwithin : ∀ limit, ds.mapM (Datum.decodeWithin limit) = .ok vs := by
      intro limit
      rw [← hvs]
      refine mapM_congr fun d hd => ?_
      obtain ⟨l, hl⟩ := hds d hd
      exact hl.decodeWithin_eq limit
    have hvsne : vs ≠ [] := by
      rintro rfl
      exact hne (List.length_eq_zero_iff.mp hlength.symm)
    refine ⟨vs, hvs, ?_, ?_, fun limit => ?_, fun limit => ?_, fun o ho => ⟨?_, fun s r hs hw => ?_⟩⟩
    · rw [Datum.decode, hsamples]
      rfl
    · rw [Datum.decode, hsamples]
      rfl
    · rw [Datum.decodeWithin, hwithin]
      rfl
    · rw [Datum.decodeWithin, hwithin]
      rfl
    · exact Options.infer_array_of_isTimestamp ho hvsne htimes
    · have hsummary := Options.summary_of_isTimestamp ho hvsne htimes
      have hnamed := Schema.named_of_objects_eq_nil (t := .timestamp) rfl
        (givenOr r.rootName s.rootTypeName)
      rw [Settings.run_of_named (fun v hv => (htimes v hv).hasDistinctNames) hs hw
        (by rw [hsummary]; rfl) (hsummary ▸ hnamed), hsummary, hlength]
  · exact Yaml.writesTime_of_timestampValue (Option.some.inj h)

/-- A date in year 5. -/
def earlyDate : Date := ⟨5, 2, 3, by decide⟩

/-- A moment on a leap day with a fraction of a second and a negative offset. -/
def leapMoment : Moment where
  date   := ⟨2024, 2, 29, by decide⟩
  clock  := ⟨23, 59, 59, 120000, by decide⟩
  offset := some ⟨-5400000000, by decide⟩

theorem timestamps_of_writesTime_of_leap_day :
    (∃ text, (Datum.moment leapMoment).decode = .ok (.string text) ∧
      meaning? Layout.all text = some (.timestamp .rfc3339)) ∧
    (∃ vs : List Sample, [.date earlyDate, .moment leapMoment].mapM Datum.decode = .ok vs ∧
      ({} : Settings).run {} vs = .ok ⟨⟨.timestamp, []⟩, .timestamp, [], 2⟩) ∧
    ∃ l, (Datum.date ⟨2024, 12, 1, by decide⟩).WritesTime l := by
  have hmoment : (Datum.moment leapMoment).WritesTime .rfc3339 := .zoned rfl (by decide)
  refine ⟨?_, ?_, ?_⟩
  · obtain ⟨text, hd, -, htext, -⟩ := timestamps_of_writesTime.1 _ _ hmoment
    exact ⟨text, hd, htext⟩
  · have hboth : ∀ d ∈ [.date earlyDate, .moment leapMoment], ∃ l, Datum.WritesTime d l := by
      simpa using ⟨⟨_, .date⟩, ⟨_, hmoment⟩⟩
    obtain ⟨vs, hvs, -, -, -, -, h⟩ := timestamps_of_writesTime.2.1 _ (by simp) hboth
    exact ⟨vs, hvs, (h {} rfl).2 {} {} rfl (by decide)⟩
  · exact timestamps_of_writesTime.2.2 "2024-12-01" _ rfl

end SampleSchema
