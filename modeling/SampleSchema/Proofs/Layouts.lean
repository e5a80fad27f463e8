import SampleSchema.Timestamp

/-!
# Layouts are disjoint

A text is a timestamp in one layout at most, and then it does not look like a number.  So it makes
no difference in which order layouts are tried, and leaving out a layout takes their meaning from the
texts in this layout and gives them no other (`layouts_disjoint`).

How a text begins and which character follows its date leave one layout only, and after a date, a T
and a time the zone decides (`Timestamp.onlyLayout`).
-/

namespace SampleSchema

open Text

namespace Timestamp

/-! ### How timestamps begin -/

theorem after?_eq_some_iff {c : Char} {cs rest : List Char} :
    after? c cs = some rest ↔ cs = c :: rest := by
  cases cs with
  | nil => simp [after?]
  | cons d cs =>
      rw [after?]
      by_cases h : d = c <;> simp [h]

theorem mapM_decimalValue?_eq_some_iff : ∀ {cs : List Char} {ds : List Nat},
    cs.mapM decimalValue? = some ds ↔ cs.map decimalValue? = ds.map some
  | [], ds => by
      cases ds <;> simp
  | c :: cs, ds => by
      simp only [List.mapM_cons, Option.bind_eq_bind, Option.bind_eq_some_iff, Option.pure_def,
        Option.some.injEq, mapM_decimalValue?_eq_some_iff]
      constructor
      · rintro ⟨d, hd, ds, hds, rfl⟩
        rw [List.map_cons, List.map_cons, hd, hds]
      · intro h
        cases ds with
        | nil => cases h
        | cons d ds =>
            rw [List.map_cons, List.map_cons, List.cons.injEq] at h
            exact ⟨d, h.1, ds, h.2, rfl⟩

/-- Characters that have values of digits are digits. -/
theorem isDecimal_of_map_decimalValue? {cs : List Char} {ds : List Nat}
    (h : cs.map decimalValue? = ds.map some) :
    ds.length = cs.length ∧ ∀ c ∈ cs, isDecimal c = true := by
  refine ⟨by simpa using (congrArg List.length h).symm, fun c hc => ?_⟩
  have hmem : decimalValue? c ∈ ds.map some := h ▸ List.mem_map_of_mem hc
  obtain ⟨d, -, hd⟩ := List.mem_map.mp hmem
  rw [isDecimal, ← hd]
  rfl

/-- What is read as a number are as many digits as asked for. -/
theorem number?_eq_some {n v : Nat} {cs rest : List Char} (h : number? n cs = some (v, rest)) :
    ∃ ds : List Char, ds.length = n ∧ (∀ c ∈ ds, isDecimal c = true) ∧ cs = ds ++ rest := by
  simp only [number?, Option.bind_eq_bind, Option.bind_eq_some_iff] at h
  obtain ⟨ds, hds, h⟩ := h
  obtain ⟨hlen, hall⟩ := isDecimal_of_map_decimalValue? (mapM_decimalValue?_eq_some_iff.mp hds)
  split at h
  · rename_i hn
    cases h
    exact ⟨cs.take n, hlen ▸ hn, hall, (List.take_append_drop n cs).symm⟩
  · cases h

/-- A date begins with the four digits of its year and a hyphen. -/
theorem date?_eq_some {d : Nat × Nat × Nat} {cs rest : List Char} (h : date? cs = some (d, rest)) :
    ∃ year cs' : List Char, year.length = 4 ∧ (∀ c ∈ year, isDecimal c = true) ∧
      cs = year ++ '-' :: cs' := by
  simp only [date?, Option.bind_eq_bind, Option.bind_eq_some_iff] at h
  obtain ⟨⟨_, afterYear⟩, hyear, afterHyphen, hhyphen, -⟩ := h
  obtain ⟨year, hlen, hall, rfl⟩ := number?_eq_some hyear
  exact ⟨year, afterHyphen, hlen, hall, congrArg (year ++ ·) (after?_eq_some_iff.mp hhyphen)⟩

/-- Whether a character begins neither a date nor a number. -/
def isNeutral (c : Char) : Bool := !isDecimal c && !isSign c && c != '.'

/-- The names of weekdays begin neither dates nor numbers. -/
theorem isNeutral_weekdays : ∀ w ∈ weekdays, w.toList.head?.any isNeutral = true := by decide

/-- A sign is no digit. -/
theorem isDecimal_eq_false_of_isSign {c : Char} (h : isSign c = true) : isDecimal c = false := by
  rcases (Bool.or_eq_true _ _).mp h with h | h <;> obtain rfl := of_decide_eq_true h <;> decide

/-! ### The layout of a timestamp -/

/-- The layout that is left for a text. -/
def onlyLayout (cs : List Char) : Layout :=
  match date? cs with
  | none => .rfc1123
  | some (_, []) => .date
  | some (_, ' ' :: _) => .sqlDatetime
  | some _ =>
    match dateTime? cs with
    | some (_, zone) => if zone = [] ∨ isPlainOffset zone then .localIso else .rfc3339
    | none => .rfc3339

/-- A date and a time of day with a letter between them leave two layouts, told apart by their
zones. -/
theorem onlyLayout_of_dateTime? {cs zone : List Char} {t : WrittenTime}
    (h : dateTime? cs = some (t, zone)) :
    onlyLayout cs = if zone = [] ∨ isPlainOffset zone then .localIso else .rfc3339 := by
  have hd := h
  simp only [dateTime?, Option.bind_eq_bind, Option.bind_eq_some_iff] at hd
  obtain ⟨⟨_, rest⟩, hdate, afterT, hT, -⟩ := hd
  -- the date is followed by a letter, so neither by a space nor by nothing
  have hletter : ∃ c, c ≠ ' ' ∧ rest = c :: afterT := by
    simp only [Option.orElse_eq_orElse, Option.orElse_eq_or, Option.or_eq_some_iff] at hT
    rcases hT with hT | ⟨-, hT⟩
    · exact ⟨'T', by decide, after?_eq_some_iff.mp hT⟩
    · exact ⟨'t', by decide, after?_eq_some_iff.mp hT⟩
  obtain ⟨c, hc, rfl⟩ := hletter
  rw [onlyLayout, hdate, h]
  split <;> simp_all

/-- An offset with a colon is no zone of a local time. -/
theorem not_isLocal_of_isColonOffset {zone : List Char} (h : isColonOffset zone = true) :
    ¬(zone = [] ∨ isPlainOffset zone = true) := by
  unfold isColonOffset at h
  split at h
  · simp [isPlainOffset]
  · cases h

/-- What begins with a weekday is no date. -/
theorem head_of_rfc1123 {cs : List Char} {t : WrittenTime} (h : written? .rfc1123 cs = some t) :
    ∃ c rest, isNeutral c = true ∧ cs = c :: rest := by
  cases hday : weekdays.contains (String.ofList (cs.take 3)) with
  | false =>
      rw [written?, hday, Bool.not_false, if_pos rfl] at h
      cases h
  | true =>
      have hhead := isNeutral_weekdays _ (List.contains_iff_mem.mp hday)
      rw [String.toList_ofList] at hhead
      cases cs with
      | nil => cases hhead
      | cons c rest => exact ⟨c, rest, hhead, rfl⟩

/-- A date does not start with a neutral character. -/
theorem date?_of_isNeutral {c : Char} {cs : List Char} (h : isNeutral c = true) :
    date? (c :: cs) = none := by
  cases hd : date? (c :: cs) with
  | none => rfl
  | some d =>
      obtain ⟨_, _⟩ := d
      obtain ⟨year, rest, hlen, hall, e⟩ := date?_eq_some hd
      cases year with
      | nil => cases hlen
      | cons y ys =>
          obtain ⟨rfl, -⟩ := List.cons_eq_cons.mp e
          simp [isNeutral, hall c List.mem_cons_self] at h

/-- A text that is written in a layout is written in the only layout that is left for it. -/
theorem eq_onlyLayout {l : Layout} {cs : List Char} {t : WrittenTime}
    (h : written? l cs = some t) : l = onlyLayout cs := by
  cases l with
  | rfc3339 =>
      simp only [written?, Option.bind_eq_bind, Option.bind_eq_some_iff] at h
      obtain ⟨⟨_, zone⟩, hdate, h⟩ := h
      split at h
      · rename_i hzone
        rw [onlyLayout_of_dateTime? hdate, if_neg]
        rcases hzone with rfl | rfl | hzone
        · decide
        · decide
        · exact not_isLocal_of_isColonOffset hzone
      · cases h
  | localIso =>
      simp only [written?, Option.bind_eq_bind, Option.bind_eq_some_iff] at h
      obtain ⟨⟨_, zone⟩, hdate, h⟩ := h
      split at h
      · rename_i hzone
        rw [onlyLayout_of_dateTime? hdate, if_pos hzone]
      · cases h
  | sqlDatetime =>
      simp only [written?, Option.bind_eq_bind, Option.bind_eq_some_iff] at h
      obtain ⟨⟨_, rest⟩, hdate, afterSpace, hspace, -⟩ := h
      obtain rfl : rest = ' ' :: afterSpace := after?_eq_some_iff.mp hspace
      simp only [onlyLayout, hdate]
  | rfc1123 =>
      obtain ⟨c, rest, hc, rfl⟩ := head_of_rfc1123 h
      rw [onlyLayout, date?_of_isNeutral hc]
  | date =>
      simp only [written?, Option.bind_eq_bind, Option.bind_eq_some_iff] at h
      obtain ⟨⟨_, rest⟩, hdate, h⟩ := h
      split at h
      · rename_i hrest
        obtain rfl : rest = [] := hrest
        rw [onlyLayout, hdate]
      · cases h

/-! ### Timestamps and numbers -/

/-- A number does not start with a neutral character. -/
theorem isUnsignedNumber_of_isNeutral {c : Char} {cs : List Char} (h : isNeutral c = true) :
    isUnsignedNumber (c :: cs) = false := by
  simp only [isNeutral, Bool.and_eq_true, Bool.not_eq_true', bne_iff_ne] at h
  obtain ⟨⟨hdigit, -⟩, hpoint⟩ := h
  rw [isUnsignedNumber, List.dropWhile_cons_of_neg (by simp [hdigit])]
  split
  · simp_all
  · simp_all
  · rfl

theorem isUnsignedNumber_of_year {year cs : List Char} (h : ∀ c ∈ year, isDecimal c = true) :
    isUnsignedNumber (year ++ '-' :: cs) = false := by
  rw [isUnsignedNumber, List.dropWhile_append_of_pos h, List.dropWhile_cons_of_neg (by decide)]
  rfl

/-- A text that is written in a layout begins neither with a sign nor with a number. -/
theorem isUnsignedNumber_of_written {l : Layout} {c : Char} {cs : List Char} {t : WrittenTime}
    (h : written? l (c :: cs) = some t) : isSign c = false ∧ isUnsignedNumber (c :: cs) = false := by
  cases hd : date? (c :: cs) with
  | none =>
      -- without a date only the layout with weekdays is left
      have hl := eq_onlyLayout h
      rw [onlyLayout, hd] at hl
      subst hl
      obtain ⟨c', rest, hc, e⟩ := head_of_rfc1123 h
      obtain ⟨rfl, rfl⟩ := List.cons_eq_cons.mp e
      refine ⟨?_, isUnsignedNumber_of_isNeutral hc⟩
      simp only [isNeutral, Bool.and_eq_true, Bool.not_eq_true'] at hc
      exact hc.1.2
  | some d =>
      obtain ⟨_, _⟩ := d
      obtain ⟨year, rest, hlen, hall, e⟩ := date?_eq_some hd
      refine ⟨?_, e ▸ isUnsignedNumber_of_year hall⟩
      cases year with
      | nil => cases hlen
      | cons y ys =>
          obtain ⟨rfl, -⟩ := List.cons_eq_cons.mp e
          cases hs : isSign c with
          | false => rfl
          | true =>
              have hc := hall c List.mem_cons_self
              rw [isDecimal_eq_false_of_isSign hs] at hc
              cases hc

end Timestamp

/-! ### Meanings -/

theorem Layout.exists_written_of_accepts {l : Layout} {text : String} (h : l.accepts text = true) :
    ∃ t, Timestamp.written? l (withoutFinalNewline text.toList) = some t := by
  rw [accepts] at h
  split at h
  · exact ⟨_, ‹_›⟩
  · cases h

/-- **No text is accepted by two layouts.** -/
theorem Layout.eq_of_accepts {l l' : Layout} {text : String} (h : l.accepts text = true)
    (h' : l'.accepts text = true) : l = l' := by
  obtain ⟨_, ht⟩ := exists_written_of_accepts h
  obtain ⟨_, ht'⟩ := exists_written_of_accepts h'
  exact (Timestamp.eq_onlyLayout ht).trans (Timestamp.eq_onlyLayout ht').symm

theorem isNumericText_of_accepts {l : Layout} {text : String} (h : l.accepts text = true) :
    isNumericText text = false := by
  obtain ⟨t, ht⟩ := Layout.exists_written_of_accepts h
  rw [isNumericText]
  split
  · rename_i c cs hcs
    rw [hcs] at ht
    obtain ⟨hsign, hnumber⟩ := Timestamp.isUnsignedNumber_of_written ht
    rw [hsign, if_neg Bool.false_ne_true, hnumber]
  · rfl

theorem accepts_of_find? {layouts : List Layout} {text : String} {l : Layout}
    (h : layouts.find? (·.accepts text) = some l) : l.accepts text = true := by
  simpa using List.find?_some h

theorem meaning?_eq_timestamp_iff {layouts : List Layout} {text : String} {l : Layout} :
    meaning? layouts text = some (.timestamp l) ↔ l ∈ layouts ∧ l.accepts text = true := by
  rw [meaning?]
  constructor
  · intro h
    split at h
    · rename_i hfind
      cases h
      exact ⟨List.mem_of_find?_eq_some hfind, accepts_of_find? hfind⟩
    · split at h <;> cases h
  · rintro ⟨hl, haccepts⟩
    split
    · rename_i l' hfind
      rw [Layout.eq_of_accepts haccepts (accepts_of_find? hfind)]
    · rename_i hfind
      exact absurd haccepts (List.find?_eq_none.mp hfind l hl)

theorem meaning?_eq_number_iff {layouts : List Layout} {text : String} :
    meaning? layouts text = some .number ↔ isNumericText text = true := by
  rw [meaning?]
  constructor
  · intro h
    split at h
    · cases h
    · split at h
      · assumption
      · cases h
  · intro h
    split
    · rename_i l hfind
      rw [isNumericText_of_accepts (accepts_of_find? hfind)] at h
      cases h
    · rw [if_pos h]

/-- **Layouts are disjoint.**  A text is a timestamp in at most one layout, and then it does not look
like a number.  With some of the layouts, tried in whatever order, a text has the meaning that it has
with all of them, unless that is a timestamp in a layout that is left out; then it has none. -/
theorem layouts_disjoint :
    (∀ (text : String) (l l' : Layout), l.accepts text = true → l'.accepts text = true → l = l') ∧
    (∀ (text : String) (l : Layout), l.accepts text = true → isNumericText text = false) ∧
    ∀ (layouts : List Layout) (text : String),
      (∀ l, meaning? layouts text = some (.timestamp l) ↔
        meaning? Layout.all text = some (.timestamp l) ∧ l ∈ layouts) ∧
      (meaning? layouts text = some .number ↔ meaning? Layout.all text = some .number) ∧
      (meaning? layouts text = none ↔ meaning? Layout.all text = none ∨
        ∃ l, meaning? Layout.all text = some (.timestamp l) ∧ l ∉ layouts) := by
  refine ⟨fun _ _ _ => Layout.eq_of_accepts, fun _ _ => isNumericText_of_accepts,
    fun layouts text => ?_⟩
  have htime : ∀ l, meaning? layouts text = some (.timestamp l) ↔
      meaning? Layout.all text = some (.timestamp l) ∧ l ∈ layouts := fun l => by
    rw [meaning?_eq_timestamp_iff, meaning?_eq_timestamp_iff, and_iff_right l.mem_all, and_comm]
  have hnumber : meaning? layouts text = some .number ↔ meaning? Layout.all text = some .number := by
    rw [meaning?_eq_number_iff, meaning?_eq_number_iff]
  refine ⟨htime, hnumber, fun h => ?_, ?_⟩
  · cases hm : meaning? Layout.all text with
    | none => exact .inl rfl
    | some m =>
        cases m with
        | timestamp l =>
            refine .inr ⟨l, rfl, fun hl => ?_⟩
            rw [(htime l).mpr ⟨hm, hl⟩] at h
            cases h
        | number =>
            rw [hnumber.mpr hm] at h
            cases h
  · intro h
    cases hm : meaning? layouts text with
    | none => rfl
    | some m =>
        cases m with
        | timestamp l =>
            obtain ⟨hall, hl⟩ := (htime l).mp hm
            rcases h with h | ⟨l', h, hl'⟩
            · cases h.symm.trans hall
            · cases h.symm.trans hall
              exact absurd hl hl'
        | number =>
            have hall := hnumber.mp hm
            rcases h with h | ⟨_, h, -⟩ <;> cases h.symm.trans hall

/-- A date, which without the layout for dates means nothing. -/
theorem layouts_disjoint_of_date :
    Layout.date.accepts "2024-03-01" = true ∧ Layout.sqlDatetime.accepts "2024-03-01" = false ∧
      isNumericText "2024-03-01" = false ∧
      meaning? [.sqlDatetime, .rfc3339] "2024-03-01" = none := by
  have hdate : Layout.date.accepts "2024-03-01" = true := by decide
  refine ⟨hdate, Bool.eq_false_iff.mpr fun h => ?_, layouts_disjoint.2.1 _ _ hdate, ?_⟩
  · cases layouts_disjoint.1 _ _ _ h hdate
  · refine (layouts_disjoint.2.2 _ _).2.2.mpr (.inr ⟨.date, ?_, by decide⟩)
    decide

end SampleSchema
