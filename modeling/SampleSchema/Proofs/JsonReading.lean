import SampleSchema.Proofs.JsonValues

/-!
# Reading JSON texts

What is known of a text that is read as a whole: it has no control characters other than white space
(`isPlain_of_read`), a character that is not blank (`isBlankText_of_read`), and somewhere as many open
brackets as its value has levels (`deep_of_nesting`); the keys in its value are texts
(`hasTextKeys_of_read`).

Reading fails for the length of an integer only in a text with a run of so many digits
(`longRun_of_read`), and for the lack of room only in a text with too many open brackets
(`deep_of_read`).
-/

namespace SampleSchema.JsonText

/-- Whether a character is one of the visible characters of ASCII. -/
def IsVisible (c : Char) : Prop := 0x21 ≤ c.toNat ∧ c.toNat ≤ 0x7e

instance (c : Char) : Decidable (IsVisible c) :=
  inferInstanceAs (Decidable (0x21 ≤ c.toNat ∧ c.toNat ≤ 0x7e))

/-- A visible character is not blank. -/
theorem isBlank_of_isVisible {c : Char} (h : IsVisible c) : Text.isBlank c = false := by
  obtain ⟨hlow, hhigh⟩ := h
  simp only [Text.isBlank, Text.inRanges, Text.blankRanges, List.any_cons, List.any_nil,
    Bool.or_false, Bool.or_eq_false_iff, Bool.and_eq_false_iff, decide_eq_false_iff_not]
  omega

theorem isVisible_of_isDigit {c : Char} (h : c.isDigit = true) : IsVisible c := by
  simp only [Char.isDigit, Bool.and_eq_true, decide_eq_true_eq] at h
  exact ⟨Nat.le_trans (by decide) h.1, Nat.le_trans h.2 (by decide)⟩

/-- A word starts with a visible character. -/
theorem isVisible_of_word? {cs : List Char} {w : Datum × Nat} (h : word? cs = some w) :
    ∃ c, cs.head? = some c ∧ IsVisible c := by
  have hall : (words.all fun w => w.1.toList.head?.any fun c => decide (IsVisible c)) = true := by
    decide
  obtain ⟨w, hw, h⟩ := List.exists_of_findSome?_eq_some h
  obtain ⟨c, hc, hvisible⟩ := (Option.any_eq_true _ _).mp (List.all_eq_true.mp hall w hw)
  rw [decide_eq_true_eq] at hvisible
  split at h
  · rename_i hp
    obtain ⟨rest, rfl⟩ := List.isPrefixOf_iff_prefix.mp hp
    exact ⟨c, by rw [List.head?_append, hc, Option.some_or], hvisible⟩
  · cases h

/-- A number starts with a visible character. -/
theorem isVisible_of_number? {cs : List Char} {r : Except Fault Datum × Nat}
    (h : number? cs = some r) : ∃ c, cs.head? = some c ∧ IsVisible c := by
  unfold number? at h
  extract_lets negative unsigned whole part partLength length double at h
  by_cases hn : negative
  · exact ⟨'-', hn, by decide⟩
  · split at h
    · cases h
    · rename_i hw
      have hunsigned : unsigned = cs := if_neg hn
      obtain ⟨rest, hrest⟩ := hunsigned ▸ wholeDigits_isPrefix unsigned
      cases hwhole : wholeDigits cs with
      | nil => exact absurd (by simp only [whole, hunsigned, hwhole, List.isEmpty_nil]) hw
      | cons c ds =>
          have hc : c.isDigit = true :=
            isDigit_of_mem_wholeDigits (hwhole ▸ List.mem_cons_self)
          refine ⟨c, by rw [← hrest, hwhole, List.cons_append, List.head?_cons], ?_⟩
          exact isVisible_of_isDigit hc

/-- A value starts with a visible character. -/
theorem isVisible_of_value {cs : List Char} {r : { r : Datum × List Char // r.2.length < cs.length }}
    {levels : Nat} (h : value levels cs = .ok r) : ∃ c, cs.head? = some c ∧ IsVisible c := by
  rw [value] at h
  split at h
  · exact ⟨_, ‹_›, by decide⟩
  · split at h
    · exact ⟨_, ‹_›, by decide⟩
    · split at h
      · exact ⟨_, ‹_›, by decide⟩
      · unfold scalar at h
        split at h
        · rename_i d n hs
          cases hw : word? cs with
          | none =>
            rw [hw] at hs
            exact isVisible_of_number? hs
          | some w => exact isVisible_of_word? hw
        · cases h
        · cases h

/-- A whole text is a value between white space. -/
theorem read_eq (levels : Nat) (s : String) :
    read levels s =
      if s.toList.head? = some '\ufeff' then .error (.malformed .byteOrderMark s.toList)
      else value levels (skipSpace s.toList) >>= fun r =>
        match skipSpace r.val.2 with
        | []   => .ok r.val.1
        | rest => .error (.malformed .extraData rest) := by
  by_cases h : s.toList.head? = some '\ufeff'
  · simp only [read, if_pos h]
    rfl
  · simp only [read, if_neg h]
    rfl

/-- The value of a text, with the room that there is. -/
theorem sound_read (levels : Nat) (s : String) :
    Sound levels (outside 0) (outside 0) s.toList (Shows 0 s.toList)
      (value levels (skipSpace s.toList)) :=
  have hspace : Moves (outside 0) (outside 0) s.toList (skipSpace s.toList) := .skipSpace 0 s.toList
  .mono hspace ((sound_value levels _ (Nat.zero_add levels)).imp fun _ hd => hd.mono hspace)

section
variable {levels : Nat} {s : String} {d : Datum} (h : read levels s = .ok d)
include h

/-- A text that is read is a value with blanks around it. -/
theorem value_of_read :
    ∃ r, value levels (skipSpace s.toList) = .ok r ∧ r.val.1 = d ∧ skipSpace r.val.2 = [] := by
  rw [read_eq] at h
  split at h
  · cases h
  · obtain ⟨r, hr, h⟩ := ok_of_bind h
    split at h
    · exact ⟨r, hr, Except.ok.inj h, ‹_›⟩
    · cases h

/-- **A text shows the value that it is read to.** -/
theorem shows_of_read : Shows 0 s.toList d := by
  obtain ⟨r, hr, rfl, -⟩ := value_of_read h
  exact (sound_read levels s).gives r hr

/-- A text that is read as a whole closes all that it opens. -/
theorem moves_of_read : Moves (outside 0) (outside 0) s.toList [] := by
  obtain ⟨r, hr, -, hend⟩ := value_of_read h
  have hspace := Moves.skipSpace 0 r.val.2
  rw [hend] at hspace
  exact ((sound_read levels s).moves r hr).trans hspace

/-- Every character of a text that is read as a whole may stand in a JSON text. -/
theorem isPlain_of_read : ∀ c ∈ s.toList, IsPlain c := by
  obtain ⟨used, hused, hplain, -⟩ := moves_of_read h
  rw [hused, List.append_nil]
  exact hplain

/-- A text that is read as a whole is not blank. -/
theorem isBlankText_of_read : Text.isBlankText s = false := by
  obtain ⟨r, hr, -, -⟩ := value_of_read h
  obtain ⟨c, hc, hvisible⟩ := isVisible_of_value hr
  have hmem : c ∈ s.toList :=
    (Moves.skipSpace 0 s.toList).isSuffix.mem (List.mem_of_mem_head? hc)
  rw [Text.isBlankText, List.all_eq_false]
  exact ⟨c, hmem, by simp [isBlank_of_isVisible hvisible]⟩

/-- The keys of mappings that are read are texts. -/
theorem hasTextKeys_of_read : d.HasTextKeys := (shows_of_read h).keys

/-- In the text of a value with more levels than allowed too many brackets are open. -/
theorem deep_of_nesting {limit : Nat} (hdeep : limit < d.nesting) : Deep limit s.toList :=
  (shows_of_read h).reaches.of_le (Nat.le_trans hdeep (Nat.le_add_left _ _))

end

/-- A text that cannot be read though it is not malformed fails as its value does. -/
theorem error_of_read {levels : Nat} {s : String} {fault : Fault} (h : read levels s = .error fault)
    (hfault : ∀ problem rest, fault ≠ .malformed problem rest) :
    value levels (skipSpace s.toList) = .error fault := by
  rw [read_eq] at h
  split at h
  · cases h
    exact absurd rfl (hfault _ _)
  · rcases error_of_bind h with hv | ⟨r, -, h⟩
    · exact hv
    · split at h
      · cases h
      · cases h
        exact absurd rfl (hfault _ _)

/-- Reading fails for the length of an integer only in a text with such a run of digits. -/
theorem longRun_of_read {levels : Nat} {s : String} (h : read levels s = .error .longInteger) :
    LongRun s.toList :=
  (sound_read levels s).long (error_of_read h nofun)

/-- Reading fails for the lack of room only in a text with too many open brackets. -/
theorem deep_of_read {levels : Nat} {s : String} (h : read levels s = .error .tooDeep) :
    Deep levels s.toList :=
  (sound_read levels s).deep (error_of_read h nofun)

end SampleSchema.JsonText
