import SampleSchema.Proofs.MomentReaders

/-!
# Timestamps are renderings of real moments

What is read in a layout is exactly what is written in it (`written?_eq_some_iff`).

So a text is a timestamp in a layout when, without a line feed at its end, it is a rendering in this
layout of numbers that name a moment (`WrittenTime.Occurs`), and what renders any other numbers is a
timestamp in no layout (`timestamp_iff_renders`).
-/

namespace SampleSchema

open Text

namespace Timestamp

/-! ### Layouts -/

/-- What is read as a date and a time of day, with a letter between them, writes them. -/
theorem exists_dateTime_of_dateTime? {t : WrittenTime} {cs rest : List Char}
    (h : dateTime? cs = some (t, rest)) :
    ∃ (date clock : List Char) (letter : Char), WritesDate t.year t.month t.day date ∧
      letter ∈ ['T', 't'] ∧ WritesClock t.hour t.minute t.second clock ∧
      cs = date ++ letter :: (clock ++ rest) := by
  simp only [dateTime?, Option.bind_eq_bind, Option.bind_eq_some_iff, Prod.exists, Option.pure_def,
    Option.some.injEq, Prod.mk.injEq, date?_eq_some_iff, Option.orElse_eq_orElse,
    Option.orElse_eq_or, Option.or_eq_some_iff, after?_eq_some_iff] at h
  obtain ⟨_, _, _, _, ⟨date, hdate, rfl⟩, _, hletter, _, _, _, _, hread, rfl, rfl⟩ := h
  obtain ⟨clock, hclock, rfl⟩ := exists_clock_of_clock? hread
  rcases hletter with rfl | ⟨-, rfl⟩
  · exact ⟨date, clock, 'T', hdate, by simp, hclock, rfl⟩
  · exact ⟨date, clock, 't', hdate, by simp, hclock, rfl⟩

theorem dateTime?_append {t : WrittenTime} {date clock zone : List Char} {letter : Char}
    (hdate : WritesDate t.year t.month t.day date) (hletter : letter ∈ ['T', 't'])
    (hclock : WritesClock t.hour t.minute t.second clock) (hzone : EndsFraction zone) :
    dateTime? (date ++ letter :: (clock ++ zone)) = some (t, zone) := by
  have hT : (after? 'T' (letter :: (clock ++ zone)) <|> after? 't' (letter :: (clock ++ zone))) =
      some (clock ++ zone) := by
    simp only [List.mem_cons, List.not_mem_nil, or_false] at hletter
    rcases hletter with rfl | rfl <;> rfl
  rw [dateTime?]
  simp only [date?_append hdate, Option.bind_eq_bind, Option.bind_some]
  rw [hT]
  simp [clock?_append hclock hzone]

/-- What is read in a layout is written in it. -/
theorem renders_of_written? {t : WrittenTime} {l : Layout} {cs : List Char}
    (h : written? l cs = some t) : Renders t l cs := by
  cases l with
  | rfc3339 =>
      simp only [written?, Option.bind_eq_bind, Option.bind_eq_some_iff, Prod.exists,
        Option.ite_none_right_eq_some, Option.some.injEq, isZone_iff] at h
      obtain ⟨t, zone, h, hzone, rfl⟩ := h
      obtain ⟨_, _, _, hdate, hletter, hclock, rfl⟩ := exists_dateTime_of_dateTime? h
      exact .rfc3339 hdate hletter hclock hzone
  | localIso =>
      simp only [written?, Option.bind_eq_bind, Option.bind_eq_some_iff, Prod.exists,
        Option.ite_none_right_eq_some, Option.some.injEq, isLocalZone_iff] at h
      obtain ⟨t, zone, h, hzone, rfl⟩ := h
      obtain ⟨_, _, _, hdate, hletter, hclock, rfl⟩ := exists_dateTime_of_dateTime? h
      exact .localIso hdate hletter hclock hzone
  | sqlDatetime =>
      simp only [written?, Option.bind_eq_bind, Option.bind_eq_some_iff, Prod.exists,
        Option.ite_none_right_eq_some, Option.some.injEq, isSqlZone_iff, date?_eq_some_iff,
        after?_eq_some_iff] at h
      obtain ⟨_, _, _, _, ⟨date, hdate, rfl⟩, _, rfl, _, _, _, zone, hread, hzone, rfl⟩ := h
      obtain ⟨clock, hclock, rfl⟩ := exists_clock_of_clock? hread
      rcases hzone with rfl | hzone
      · rw [List.append_nil]
        exact .sqlDatetime hdate hclock
      · cases hspace : after? ' ' zone with
        | none =>
            rw [hspace] at hzone
            have hblank : [] ∈ [[], [' ']] := by simp
            exact Renders.sqlDatetimeWithZone hdate hclock hblank hzone
        | some rest =>
            rw [hspace] at hzone
            obtain rfl := after?_eq_some_iff.mp hspace
            have hblank : [' '] ∈ [[], [' ']] := by simp
            exact Renders.sqlDatetimeWithZone hdate hclock hblank hzone
  | rfc1123 =>
      rw [written?] at h
      split at h
      · cases h
      · rename_i hweekday
        simp only [Option.bind_eq_bind, Option.bind_eq_some_iff, Prod.exists,
          Option.ite_none_right_eq_some, Option.some.injEq, isNamedZone_iff, after?_eq_some_iff,
          number?_eq_some_iff, month?_eq_some_iff] at h
        obtain ⟨_, hcomma, _, rfl, _, _, ⟨day, hday, rfl⟩, name, rfl, _, hmonth, _, hspace, _, _,
          ⟨year, hyear, rfl⟩, _, rfl, _, _, _, _, hread, zone, rfl, hzone, rfl⟩ := h
        obtain ⟨clock, hclock, rfl⟩ := exists_clock_of_clock? hread
        have hmem : String.ofList (cs.take 3) ∈ weekdays := by simpa using hweekday
        have hrenders := Renders.rfc1123 (t := ⟨_, _, _, _, _, _⟩) hmem hday hmonth hyear hclock hzone
        rwa [String.toList_ofList, ← hspace, List.take_append_drop, ← hcomma,
          List.take_append_drop] at hrenders
  | date =>
      simp only [written?, Option.bind_eq_bind, Option.bind_eq_some_iff, Prod.exists,
        Option.ite_none_right_eq_some, Option.some.injEq, date?_eq_some_iff] at h
      obtain ⟨_, _, _, _, ⟨date, hdate, rfl⟩, rfl, rfl⟩ := h
      rw [List.append_nil]
      exact .date hdate rfl rfl rfl

/-- What is written in a layout is read in it. -/
theorem written?_of_renders {t : WrittenTime} {l : Layout} {cs : List Char}
    (h : Renders t l cs) : written? l cs = some t := by
  cases h with
  | rfc3339 hdate hletter hclock hzone =>
      rw [written?, dateTime?_append hdate hletter hclock hzone.endsFraction]
      exact if_pos (isZone_iff.mpr hzone)
  | localIso hdate hletter hclock hzone =>
      rw [written?, dateTime?_append hdate hletter hclock hzone.endsFraction]
      exact if_pos (isLocalZone_iff.mpr hzone)
  | sqlDatetime hdate hclock =>
      have hclock := clock?_append hclock endsFraction_nil
      rw [List.append_nil] at hclock
      simp [written?, date?_append hdate, hclock]
  | @sqlDatetimeWithZone _ _ space zone hdate hclock hspace hzone =>
      have hends : EndsFraction (space ++ zone) ∧
          (after? ' ' (space ++ zone)).getD (space ++ zone) = zone := by
        simp only [List.mem_cons, List.not_mem_nil, or_false] at hspace
        rcases hspace with rfl | rfl
        · exact ⟨hzone.endsFraction, by rw [List.nil_append, hzone.after?_space]; rfl⟩
        · exact ⟨endsFraction_cons (by decide) _, rfl⟩
      simp [written?, date?_append hdate, clock?_append hclock hends.1, hends.2,
        isSqlZone_iff.mpr hzone]
  | @rfc1123 weekday day month year clock zone hweekday hday hmonth hyear hclock hzone =>
      have hw := length_of_mem_weekdays _ hweekday
      have hends : EndsFraction (' ' :: zone) := endsFraction_cons (by decide) _
      rw [written?, List.take_left' hw, String.ofList_toList, List.contains_iff_mem.mpr hweekday,
        Bool.not_true, if_neg Bool.false_ne_true, List.drop_left' hw]
      simp only [after?_cons, Option.bind_eq_bind, Option.bind_some, number?_append hday]
      rw [List.take_left' hmonth.length, List.drop_left' hmonth.length,
        month?_eq_some_iff.mpr hmonth]
      simp only [after?_cons, Option.bind_some, number?_append hyear, clock?_append hclock hends]
      exact if_pos (isNamedZone_iff.mpr hzone)
  | date hdate hhour hminute hsecond =>
      have hdate := date?_append hdate []
      rw [List.append_nil] at hdate
      obtain ⟨_, _, _, _, _, _⟩ := t
      simp_all [written?]

/-- **What is read in a layout is what is written in it.** -/
theorem written?_eq_some_iff {t : WrittenTime} {l : Layout} {cs : List Char} :
    written? l cs = some t ↔ Renders t l cs :=
  ⟨renders_of_written?, written?_of_renders⟩

end Timestamp

open Timestamp

/-! ### Texts -/

theorem eq_withoutFinalNewline (cs : List Char) :
    cs = withoutFinalNewline cs ∨ cs = withoutFinalNewline cs ++ ['\n'] := by
  rw [withoutFinalNewline]
  split
  · rename_i h
    obtain ⟨ds, rfl⟩ := List.getLast?_eq_some_iff.mp h
    exact .inr (by rw [List.dropLast_concat])
  · exact .inl rfl

theorem withoutFinalNewline_eq {cs body : List Char} (h : cs = body ∨ cs = body ++ ['\n'])
    (hbody : '\n' ∉ body) : withoutFinalNewline cs = body := by
  rw [withoutFinalNewline]
  rcases h with rfl | rfl
  · exact if_neg fun h => hbody (List.mem_of_getLast? h)
  · rw [if_pos List.getLast?_concat, List.dropLast_concat]

/-- A rendering, perhaps with a line feed behind it, is a timestamp in the layouts in which it is
read if its numbers name a moment, and in no layout if they do not. -/
theorem accepts_iff_of_renders {text : String} {body : List Char} {l : Layout} {t : WrittenTime}
    (htext : text.toList = body ∨ text.toList = body ++ ['\n']) (h : Renders t l body)
    (l' : Layout) : l'.accepts text = true ↔ l' = l ∧ t.Occurs := by
  have hbody : withoutFinalNewline text.toList = body :=
    withoutFinalNewline_eq htext h.newline_notMem
  have hwritten := written?_eq_some_iff.mpr h
  rw [t.occurs_iff]
  constructor
  · intro haccepts
    obtain ⟨t', ht'⟩ := Layout.exists_written_of_accepts haccepts
    rw [hbody] at ht'
    obtain rfl : l' = l := (eq_onlyLayout ht').trans (eq_onlyLayout hwritten).symm
    rw [Layout.accepts, hbody, hwritten] at haccepts
    exact ⟨rfl, of_decide_eq_true haccepts⟩
  · rintro ⟨rfl, hreal⟩
    rw [Layout.accepts, hbody, hwritten]
    exact decide_eq_true hreal

theorem Layout.accepts_iff {text : String} {l : Layout} :
    l.accepts text = true ↔ ∃ (body : List Char) (t : WrittenTime),
      (text.toList = body ∨ text.toList = body ++ ['\n']) ∧ Renders t l body ∧ t.Occurs := by
  constructor
  · intro h
    obtain ⟨t, ht⟩ := exists_written_of_accepts h
    have hrenders := written?_eq_some_iff.mp ht
    have htext := eq_withoutFinalNewline text.toList
    exact ⟨_, t, htext, hrenders, ((accepts_iff_of_renders htext hrenders l).mp h).2⟩
  · rintro ⟨body, t, htext, hrenders, hoccurs⟩
    exact (accepts_iff_of_renders htext hrenders l).mpr ⟨rfl, hoccurs⟩

/-- **Timestamps are renderings of real moments.**  With all layouts, a text is a timestamp in a
layout exactly if it is a rendering in this layout, perhaps with one line feed behind it, of numbers
that name a moment.  So each layout accepts its renderings of moments, and no layout accepts a
rendering of numbers that name none. -/
theorem timestamp_iff_renders :
    (∀ (text : String) (l : Layout), meaning? Layout.all text = some (.timestamp l) ↔
      ∃ (body : List Char) (t : WrittenTime),
        (text.toList = body ∨ text.toList = body ++ ['\n']) ∧ Renders t l body ∧ t.Occurs) ∧
    ∀ (text : String) (body : List Char) (l : Layout) (t : WrittenTime),
      (text.toList = body ∨ text.toList = body ++ ['\n']) → Renders t l body →
        (t.Occurs → l.accepts text = true) ∧
        (¬ t.Occurs → ∀ l' : Layout, l'.accepts text = false) := by
  refine ⟨fun text l => ?_, fun text body l t htext hrenders => ⟨fun h => ?_, fun h l' => ?_⟩⟩
  · rw [meaning?_eq_timestamp_iff, and_iff_right l.mem_all, Layout.accepts_iff]
  · exact (accepts_iff_of_renders htext hrenders l).mpr ⟨rfl, h⟩
  · exact Bool.eq_false_iff.mpr fun haccepts =>
      h ((accepts_iff_of_renders htext hrenders l').mp haccepts).2

/-- A leap day in digits of two scripts with a line feed behind it, and in a year without one. -/
theorem timestamp_iff_renders_leap_day :
    Layout.date.accepts "٢٠٠٠-02-29\n" = true ∧
      ∀ l : Layout, l.accepts "1900-02-29" = false := by
  have hleap : Renders ⟨2000, 2, 29, 0, 0, 0⟩ .date "٢٠٠٠-02-29".toList :=
    written?_eq_some_iff.mp (by decide)
  have hcommon : Renders ⟨1900, 2, 29, 0, 0, 0⟩ .date "1900-02-29".toList :=
    written?_eq_some_iff.mp (by decide)
  refine ⟨(timestamp_iff_renders.2 _ _ _ _ (.inr (by decide)) hleap).1 ?_,
    (timestamp_iff_renders.2 _ _ _ _ (.inl rfl) hcommon).2 fun h => ?_⟩
  · exact (WrittenTime.occurs_iff _).mpr (by decide)
  · exact absurd ((WrittenTime.occurs_iff _).mp h) (by decide)

end SampleSchema