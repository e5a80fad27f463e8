import SampleSchema.Proofs.WrittenMoments

/-!
# Reading moments

The readers of numbers, dates, times of day, zones and names read what writes them and nothing else
(`date?_eq_some_iff`, `isSqlZone_iff`, `month?_eq_some_iff`).  A time of day is read up to the end of
its fraction, so what follows it must not go on with one (`EndsFraction`), and no zone does.
-/

namespace SampleSchema.Timestamp

open Text

/-! ### Numbers -/

/-- A number is read where it is written, and nothing else is. -/
theorem number?_eq_some_iff {n value : Nat} {cs rest : List Char} :
    number? n cs = some (value, rest) ↔ ∃ ds, WritesNumber n value ds ∧ cs = ds ++ rest := by
  simp only [number?, Option.bind_eq_bind, Option.bind_eq_some_iff, mapM_decimalValue?_eq_some_iff]
  constructor
  · rintro ⟨ds, hds, h⟩
    split at h
    · rename_i hlen
      cases h
      exact ⟨cs.take n, ⟨ds, hlen, hds, rfl⟩, (List.take_append_drop n cs).symm⟩
    · cases h
  · rintro ⟨cs, h, rfl⟩
    obtain rfl := h.length
    obtain ⟨ds, hlen, hds, rfl⟩ := h
    exact ⟨ds, by rw [List.take_left, hds], by rw [if_pos hlen, List.drop_left]⟩

/-- A number is read off the front of a text that goes on behind it. -/
theorem number?_append {n value : Nat} {ds : List Char} (h : WritesNumber n value ds)
    (rest : List Char) : number? n (ds ++ rest) = some (value, rest) :=
  number?_eq_some_iff.mpr ⟨ds, h, rfl⟩

@[simp] theorem after?_cons (c : Char) (cs : List Char) : after? c (c :: cs) = some cs :=
  after?_eq_some_iff.mpr rfl
/-! ### Dates and times of day -/

/-- A date is read where it is written, and nothing else is. -/
theorem date?_eq_some_iff {year month day : Nat} {cs rest : List Char} :
    date? cs = some ((year, month, day), rest) ↔
      ∃ ds, WritesDate year month day ds ∧ cs = ds ++ rest := by
  constructor
  · intro h
    simp only [date?, Option.bind_eq_bind, Option.bind_eq_some_iff, after?_eq_some_iff,
      number?_eq_some_iff, Prod.exists, Option.pure_def, Option.some.injEq, Prod.mk.injEq] at h
    obtain ⟨_, _, ⟨y, hy, rfl⟩, _, rfl, _, _, ⟨m, hm, rfl⟩, _, rfl, _, _, ⟨d, hd, rfl⟩,
      ⟨rfl, rfl, rfl⟩, rfl⟩ := h
    exact ⟨_, .mk hy hm hd, by simp⟩
  · rintro ⟨_, ⟨hy, hm, hd⟩, rfl⟩
    simp [date?, number?_append hy, number?_append hm, number?_append hd]

/-- A date is read off the front of a text that goes on behind it. -/
theorem date?_append {year month day : Nat} {ds : List Char} (h : WritesDate year month day ds)
    (rest : List Char) : date? (ds ++ rest) = some ((year, month, day), rest) :=
  date?_eq_some_iff.mpr ⟨ds, h, rfl⟩

/-- Whether characters do not go on with a fraction: they begin neither with a digit nor with a
point. -/
def EndsFraction (cs : List Char) : Prop := ∀ c ∈ cs.head?, isDecimal c = false ∧ c ≠ '.'

/-- Only a fraction of a second is skipped as one. -/
theorem exists_fraction_of_afterFraction? {cs rest : List Char} (h : afterFraction? cs = some rest) :
    ∃ f, WritesFraction f ∧ cs = f ++ rest := by
  unfold afterFraction? at h
  split at h
  · rename_i cs
    dsimp only at h
    split at h
    · rename_i hlen
      cases h
      refine ⟨'.' :: cs.takeWhile isDecimal,
        .digits hlen.1 hlen.2 ⟨rfl, fun c hc => ?_⟩, ?_⟩
      · exact List.all_eq_true.mp List.all_takeWhile c hc
      · have hdrop : cs.drop (cs.takeWhile isDecimal).length = cs.dropWhile isDecimal := by
          conv => lhs; arg 2; rw [← List.takeWhile_append_dropWhile (p := isDecimal) (l := cs)]
          rw [List.drop_left]
        rw [hdrop, List.cons_append, List.takeWhile_append_dropWhile]
    · cases h
  · cases h
    exact ⟨[], .none, rfl⟩

/-- The digits of a fraction end where the text does not go on with one. -/
theorem takeWhile_append_of_endsFraction {ds rest : List Char}
    (hds : ∀ c ∈ ds, isDecimal c = true) (hrest : EndsFraction rest) :
    (ds ++ rest).takeWhile isDecimal = ds := by
  rw [List.takeWhile_append_of_pos hds]
  cases rest with
  | nil => rw [List.takeWhile_nil, List.append_nil]
  | cons c cs => rw [List.takeWhile_cons_of_neg (by simp [(hrest c rfl).1]), List.append_nil]

/-- A fraction is skipped whole, if the text does not go on with one behind it. -/
theorem afterFraction?_append {f rest : List Char} (h : WritesFraction f)
    (hrest : EndsFraction rest) : afterFraction? (f ++ rest) = some rest := by
  cases h with
  | none =>
      rw [List.nil_append, afterFraction?]
      rintro cs rfl
      exact (hrest '.' rfl).2 rfl
  | digits hpos hle hds =>
      obtain ⟨rfl, hds⟩ := hds
      rw [List.cons_append, afterFraction?, takeWhile_append_of_endsFraction hds hrest,
        if_pos ⟨hpos, hle⟩, List.drop_left]

/-- What is read as a time of day writes it. -/
theorem exists_clock_of_clock? {hour minute second : Nat} {cs rest : List Char}
    (h : clock? cs = some ((hour, minute, second), rest)) :
    ∃ ds, WritesClock hour minute second ds ∧ cs = ds ++ rest := by
  simp only [clock?, Option.bind_eq_bind, Option.bind_eq_some_iff, after?_eq_some_iff,
    number?_eq_some_iff, Prod.exists, Option.pure_def, Option.some.injEq, Prod.mk.injEq] at h
  obtain ⟨_, _, ⟨h, hh, rfl⟩, _, rfl, _, _, ⟨m, hm, rfl⟩, _, rfl, _, _, ⟨s, hs, rfl⟩, _, hrest,
    ⟨rfl, rfl, rfl⟩, rfl⟩ := h
  obtain ⟨f, hf, rfl⟩ := exists_fraction_of_afterFraction? hrest
  exact ⟨_, .mk hh hm hs hf, by simp⟩

/-- A time of day is read off the front of a text that does not go on with a fraction. -/
theorem clock?_append {hour minute second : Nat} {ds rest : List Char}
    (h : WritesClock hour minute second ds) (hrest : EndsFraction rest) :
    clock? (ds ++ rest) = some ((hour, minute, second), rest) := by
  obtain ⟨hh, hm, hs, hf⟩ := h
  simp [clock?, number?_append hh, number?_append hm, number?_append hs,
    afterFraction?_append hf hrest]

/-! ### Zones and names -/

theorem isSign_iff {c : Char} : isSign c = true ↔ c ∈ ['+', '-'] := by
  simp [isSign]

/-- Two digits, one by one. -/
theorem areDigits_two_iff {cs : List Char} :
    AreDigits 2 cs ↔ ∃ a b, cs = [a, b] ∧ isDecimal a = true ∧ isDecimal b = true := by
  constructor
  · rintro ⟨hlen, hall⟩
    match cs, hlen with
    | [a, b], _ => exact ⟨a, b, rfl, hall a (by simp), hall b (by simp)⟩
  · rintro ⟨a, b, rfl, ha, hb⟩
    exact ⟨rfl, by simp [ha, hb]⟩

/-- An offset, character by character. -/
theorem writesOffset_iff {separator cs : List Char} : WritesOffset separator cs ↔
    ∃ s a b c d, cs = s :: ([a, b] ++ separator ++ [c, d]) ∧
      (isSign s && [a, b, c, d].all isDecimal) = true := by
  simp only [Bool.and_eq_true, List.all_cons, List.all_nil, and_true]
  constructor
  · rintro ⟨hsign, hh, hm⟩
    obtain ⟨a, b, rfl, ha, hb⟩ := areDigits_two_iff.mp hh
    obtain ⟨c, d, rfl, hc, hd⟩ := areDigits_two_iff.mp hm
    exact ⟨_, a, b, c, d, rfl, isSign_iff.mpr hsign, ha, hb, hc, hd⟩
  · rintro ⟨s, a, b, c, d, rfl, hsign, ha, hb, hc, hd⟩
    exact .mk (isSign_iff.mp hsign) (areDigits_two_iff.mpr ⟨a, b, rfl, ha, hb⟩)
      (areDigits_two_iff.mpr ⟨c, d, rfl, hc, hd⟩)

/-- The offsets with a colon are those that are recognized as such. -/
theorem isColonOffset_iff {cs : List Char} : isColonOffset cs = true ↔ WritesOffset [':'] cs := by
  rw [writesOffset_iff]
  constructor
  · intro h
    unfold isColonOffset at h
    split at h
    · exact ⟨_, _, _, _, _, rfl, h⟩
    · cases h
  · rintro ⟨s, a, b, c, d, rfl, h⟩
    exact h

/-- The offsets without a separator are those that are recognized as such. -/
theorem isPlainOffset_iff {cs : List Char} : isPlainOffset cs = true ↔ WritesOffset [] cs := by
  rw [writesOffset_iff]
  constructor
  · intro h
    unfold isPlainOffset at h
    split at h
    · exact ⟨_, _, _, _, _, rfl, h⟩
    · cases h
  · rintro ⟨s, a, b, c, d, rfl, h⟩
    exact h

/-- The offsets of hours are those that are recognized as such. -/
theorem isHourOffset_iff {cs : List Char} : isHourOffset cs = true ↔ WritesHours cs := by
  constructor
  · intro h
    unfold isHourOffset at h
    split at h
    · rename_i s a b
      simp only [Bool.and_eq_true, List.all_cons, List.all_nil, and_true] at h
      obtain ⟨hsign, ha, hb⟩ := h
      exact .mk (isSign_iff.mp hsign) (areDigits_two_iff.mpr ⟨a, b, rfl, ha, hb⟩)
    · cases h
  · rintro ⟨hsign, hh⟩
    obtain ⟨a, b, rfl, ha, hb⟩ := areDigits_two_iff.mp hh
    simp [isHourOffset, isSign_iff.mpr hsign, ha, hb]

theorem isZone_iff {cs : List Char} :
    (cs = ['Z'] ∨ cs = ['z'] ∨ isColonOffset cs = true) ↔ WritesZone cs := by
  rw [isColonOffset_iff, WritesZone]

theorem isLocalZone_iff {cs : List Char} :
    (cs = [] ∨ isPlainOffset cs = true) ↔ WritesLocalZone cs := by
  rw [isPlainOffset_iff, WritesLocalZone]

/-- The zones of the layout for databases are those that are recognized as such. -/
theorem isSqlZone_iff {cs : List Char} : isSqlZone cs = true ↔ WritesSqlZone cs := by
  simp only [isSqlZone, Bool.or_eq_true, beq_iff_eq, isHourOffset_iff, isColonOffset_iff,
    isPlainOffset_iff, or_assoc, WritesSqlZone]

/-- The named zones are those that are recognized as such. -/
theorem isNamedZone_iff {cs : List Char} :
    (isZoneName cs = true ∨ isPlainOffset cs = true) ↔ WritesNamedZone cs := by
  have hupper : ∀ c : Char, c.isUpper = true ↔ 'A' ≤ c ∧ c ≤ 'Z' := fun _ => decide_eq_true_iff
  simp only [isZoneName, Bool.and_eq_true, Bool.or_eq_true, decide_eq_true_eq, List.all_eq_true,
    hupper, isPlainOffset_iff, WritesNamedZone]

/-- A month is read from its name in either case, and from nothing else. -/
theorem month?_eq_some_iff {month : Nat} {cs : List Char} :
    month? cs = some month ↔ WritesMonth month cs := by
  have hnodup : months.Nodup := by decide
  rw [month?, Option.map_eq_some_iff]
  constructor
  · rintro ⟨i, hi, rfl⟩
    obtain ⟨hlt, hi, -⟩ := List.idxOf?_eq_some_iff.mp hi
    exact ⟨i, rfl, List.getElem?_eq_some_iff.mpr ⟨hlt, hi⟩⟩
  · rintro ⟨i, rfl, hi⟩
    obtain ⟨hlt, hi⟩ := List.getElem?_eq_some_iff.mp hi
    refine ⟨i, List.idxOf?_eq_some_iff.mpr ⟨hlt, hi, fun j hj h => ?_⟩, rfl⟩
    exact absurd (h.trans hi.symm) (List.pairwise_iff_getElem.mp hnodup j i _ hlt hj)

/-- The name of a month has three letters. -/
theorem WritesMonth.length {month : Nat} {cs : List Char} (h : WritesMonth month cs) :
    cs.length = 3 := by
  obtain ⟨i, -, hi⟩ := h
  have hlen : ∀ m ∈ months, m.length = 3 := by decide
  simpa using hlen _ (List.mem_of_getElem? hi)

theorem length_of_mem_weekdays : ∀ w ∈ weekdays, w.toList.length = 3 := by decide

/-! ### Zones end a time of day -/

theorem endsFraction_nil : EndsFraction [] := fun _ h => by cases h

theorem endsFraction_cons {c : Char} (h : isDecimal c = false ∧ c ≠ '.') (cs : List Char) :
    EndsFraction (c :: cs) := fun d hd => by
  obtain rfl : c = d := by simpa using hd
  exact h

theorem endsFraction_of_sign {sign : Char} (h : sign ∈ ['+', '-']) (cs : List Char) :
    EndsFraction (sign :: cs) := by
  refine endsFraction_cons ⟨isDecimal_eq_false_of_isSign (isSign_iff.mpr h), ?_⟩ cs
  rintro rfl
  simp at h

theorem WritesOffset.endsFraction {separator cs : List Char} (h : WritesOffset separator cs) :
    EndsFraction cs := by
  obtain ⟨hsign, -, -⟩ := h
  exact endsFraction_of_sign hsign _

/-- No zone of the most specific layout goes on with a fraction. -/
theorem WritesZone.endsFraction {cs : List Char} (h : WritesZone cs) : EndsFraction cs := by
  rcases h with rfl | rfl | h
  · exact endsFraction_cons (by decide) _
  · exact endsFraction_cons (by decide) _
  · exact h.endsFraction

theorem WritesLocalZone.endsFraction {cs : List Char} (h : WritesLocalZone cs) :
    EndsFraction cs := by
  rcases h with rfl | h
  · exact endsFraction_nil
  · exact h.endsFraction

/-- No zone of the layout for databases goes on with a fraction. -/
theorem WritesSqlZone.endsFraction {cs : List Char} (h : WritesSqlZone cs) : EndsFraction cs := by
  rcases h with rfl | rfl | ⟨hsign, -⟩ | h | h
  · exact endsFraction_cons (by decide) _
  · exact endsFraction_cons (by decide) _
  · exact endsFraction_of_sign hsign _
  · exact h.endsFraction
  · exact h.endsFraction

/-- No zone of the layout for databases starts with a space. -/
theorem WritesSqlZone.after?_space {cs : List Char} (h : WritesSqlZone cs) :
    after? ' ' cs = none := by
  have hsign : ∀ {sign : Char}, sign ∈ ['+', '-'] → sign ≠ ' ' := by
    rintro _ h rfl
    simp at h
  rcases h with rfl | rfl | ⟨hs, -⟩ | ⟨hs, -, -⟩ | ⟨hs, -, -⟩
  · rfl
  · rfl
  all_goals rw [after?, if_neg (hsign hs)]

end SampleSchema.Timestamp
