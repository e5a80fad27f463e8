import SampleSchema.Proofs.JsonBrackets
import SampleSchema.Proofs.Nesting

/-!
# Reading the parts of a JSON text

A reader takes characters that may stand in a JSON text and leaves as many brackets open as there were
before.  It fails for the length of an integer only in a text with a run of more digits than an integer
may have (`LongRun`), and for the lack of room only where more brackets are open than allowed.

* `Sound` says all of this of one reading, and there is one lemma `sound_…` for each reader of a part:
  texts, words and numbers.
-/

namespace SampleSchema.JsonText

/-- Whether a text has a run of more digits than an integer may have. -/
def LongRun (cs : List Char) : Prop :=
  ∃ ds, ds <:+: cs ∧ (∀ d ∈ ds, d.isDigit = true) ∧ Literal.maxDigits < ds.length

theorem LongRun.mono {as bs : List Char} (h : LongRun bs) (hs : bs <:+: as) : LongRun as := by
  obtain ⟨ds, hi, hd, hl⟩ := h
  exact ⟨ds, hi.trans hs, hd, hl⟩

/-! ### Single characters -/

/-- A visible character of ASCII that is neither a quote nor a bracket nor a backslash. -/
def IsSimple (c : Char) : Prop := 0x21 ≤ c.toNat ∧ IsQuiet c ∧ c ≠ '\\'

instance (c : Char) : Decidable (IsSimple c) :=
  inferInstanceAs (Decidable (0x21 ≤ c.toNat ∧ IsQuiet c ∧ c ≠ '\\'))

/-- A simple character is plain. -/
theorem IsSimple.isPlain {c : Char} (h : IsSimple c) : IsPlain c :=
  .inr (Nat.le_trans (by decide) h.1)

/-- Between quotes such a character changes nothing either. -/
theorem IsSimple.step_inside {c : Char} (h : IsSimple c) (depth : Nat) :
    (inside depth).step c = inside depth := by
  obtain ⟨-, ⟨hquote, -⟩, hslash⟩ := h
  simp [Brackets.step, inside, hquote, hslash]

/-- Digits and letters are such characters. -/
theorem isSimple_of_toNat {c : Char} (h : (48 ≤ c.toNat ∧ c.toNat < 58) ∨
    (65 ≤ c.toNat ∧ c.toNat < 91) ∨ (97 ≤ c.toNat ∧ c.toNat < 123)) : IsSimple c := by
  have hne : ∀ d : Char, ¬ ((48 ≤ d.toNat ∧ d.toNat < 58) ∨ (65 ≤ d.toNat ∧ d.toNat < 91) ∨
      (97 ≤ d.toNat ∧ d.toNat < 123)) → c ≠ d := fun d hd e => hd (e ▸ h)
  refine ⟨by omega, ⟨hne _ (by decide), ?_, ?_⟩, hne _ (by decide)⟩
  · simp [opens, hne '[' (by decide), hne '\x7b' (by decide)]
  · simp [closes, hne ']' (by decide), hne '\x7d' (by decide)]

/-- A digit is simple. -/
theorem isSimple_of_isDigit {c : Char} (h : c.isDigit = true) : IsSimple c := by
  simp only [Char.isDigit, Bool.and_eq_true, decide_eq_true_eq] at h
  obtain ⟨hlow, hhigh⟩ := h
  have hlow : 48 ≤ c.toNat := hlow
  have hhigh : c.toNat ≤ 57 := hhigh
  exact isSimple_of_toNat (by omega)

/-- A hexadecimal digit is simple. -/
theorem isSimple_of_hexValue? {c : Char} {n : Nat} (h : Text.hexValue? c = some n) :
    IsSimple c := by
  refine isSimple_of_toNat ?_
  have h0 : '0'.toNat = 48 := rfl
  have ha : 'a'.toNat = 97 := rfl
  have hA : 'A'.toNat = 65 := rfl
  have h9 : '9'.toNat = 57 := rfl
  have hf : 'f'.toNat = 102 := rfl
  have hF : 'F'.toNat = 70 := rfl
  simp only [Text.hexValue?, h0, ha, hA, h9, hf, hF] at h
  split at h
  · omega
  · split at h
    · omega
    · split at h
      · omega
      · cases h

/-- The four digits of an escape stay inside of the string. -/
theorem moves_of_unit? {a b c d : Char} {n : Nat} (h : unit? a b c d = some n) (depth : Nat)
    (rest : List Char) : Moves (inside depth) (inside depth) (a :: b :: c :: d :: rest) rest := by
  simp only [unit?, Option.bind_eq_bind, Option.bind_eq_some_iff] at h
  obtain ⟨w, hw, x, hx, y, hy, z, hz, -⟩ := h
  have hone : ∀ {c : Char} {n : Nat} (_ : Text.hexValue? c = some n) {cs : List Char},
      Moves (inside depth) (inside depth) cs rest →
        Moves (inside depth) (inside depth) (c :: cs) rest := by
    intro c n hc cs hcs
    have hsimple := isSimple_of_hexValue? hc
    refine .cons hsimple.isPlain ?_
    rwa [hsimple.step_inside]
  exact hone hw (hone hx (hone hy (hone hz (.refl _ rest))))

/-! ### Readings -/

/-- Whether a reading moves from one state of the brackets to another, gives something with `q`, and
fails for the length of an integer or for the lack of room only where there is a reason to. -/
structure Sound {α : Type} {p : α × List Char → Prop} (limit : Nat) (a b : Brackets) (cs : List Char)
    (q : α → Prop) (x : Except Fault { r : α × List Char // p r }) : Prop where
  moves : ∀ r, x = .ok r → Moves a b cs r.val.2
  gives : ∀ r, x = .ok r → q r.val.1
  long  : x = .error .longInteger → LongRun cs
  deep  : x = .error .tooDeep → Reaches a cs (limit + 1)

namespace Sound

variable {α β : Type} {p : α × List Char → Prop} {p' : β × List Char → Prop} {limit : Nat}
  {a b d : Brackets} {as cs : List Char} {q : α → Prop} {q' : β → Prop}

theorem ok {r : { r : α × List Char // p r }} (h : Moves a b cs r.val.2) (hq : q r.val.1) :
    Sound limit a b cs q (.ok r : Except Fault { r : α × List Char // p r }) where
  moves := by rintro _ ⟨⟩; exact h
  gives := by rintro _ ⟨⟩; exact hq
  long  := nofun
  deep  := nofun

theorem malformed (problem : JsonProblem) (rest : List Char) :
    Sound limit a b cs q
      (.error (.malformed problem rest) : Except Fault { r : α × List Char // p r }) where
  moves := nofun
  gives := nofun
  long  := nofun
  deep  := nofun

/-- A reading may start with taking some characters. -/
theorem mono {x : Except Fault { r : α × List Char // p r }} (hm : Moves a b as cs)
    (hx : Sound limit b d cs q x) : Sound limit a d as q x where
  moves r hr := hm.trans (hx.moves r hr)
  gives      := hx.gives
  long h     := (hx.long h).mono hm.isSuffix.isInfix
  deep h     := hm.reaches (hx.deep h)

theorem imp {q₂ : α → Prop} {x : Except Fault { r : α × List Char // p r }} (hq : ∀ v, q v → q₂ v)
    (hx : Sound limit a b cs q x) : Sound limit a b cs q₂ x :=
  ⟨hx.moves, fun r hr => hq _ (hx.gives r hr), hx.long, hx.deep⟩

/-- A failure is that of another reading. -/
theorem failed {x : Except Fault { r : α × List Char // p r }} {fault : Fault}
    (hx : Sound limit a b cs q x) (hf : x = .error fault) :
    Sound limit a d cs q' (.error fault : Except Fault { r : β × List Char // p' r }) where
  moves  := nofun
  gives  := nofun
  long h := hx.long (by cases h; exact hf)
  deep h := hx.deep (by cases h; exact hf)

theorem bind {x : Except Fault { r : α × List Char // p r }}
    {f : { r : α × List Char // p r } → Except Fault { r : β × List Char // p' r }}
    (hx : Sound limit a b cs q x)
    (hf : ∀ r, Moves a b cs r.val.2 → q r.val.1 → Sound limit a d cs q' (f r)) :
    Sound limit a d cs q' (x >>= f) := by
  cases h : x with
  | error fault => exact hx.failed h
  | ok r => exact hf r (hx.moves r h) (hx.gives r h)

end Sound

/-! ### Texts -/

variable {limit : Nat}

/-- An escape by a number, perhaps of two units, stays inside of the string. -/
theorem sound_escapedUnit (depth first : Nat) (cs : List Char) :
    Sound limit (inside depth) (inside depth) cs (fun _ => True) (escapedUnit first cs) := by
  unfold escapedUnit
  split
  · rename_i p q r s t after
    split
    · split
      · exact .malformed _ _
      · rename_i n hn
        split
        · -- a second half of a surrogate pair is taken along
          refine .ok (.cons (c := '\\') (.inr (by decide)) (.cons (c := 'u') (.inr (by decide)) ?_))
            trivial
          exact moves_of_unit? hn depth _
        · exact .ok (.refl _ _) trivial
    · exact .ok (.refl _ _) trivial
  · exact .ok (.refl _ _) trivial

/-- The letters of short escapes are plain. -/
theorem escaped?_plain {c e : Char} (h : escaped? c = some e) : IsPlain c := by
  unfold escaped? at h
  split at h
  all_goals first
    | exact .inr (by decide)
    | cases h

/-- Of the characters between quotes, only a backslash and a quote mean anything. -/
theorem step_inside {c : Char} (hslash : c ≠ '\\') (hquote : c ≠ '"') (depth : Nat) :
    (inside depth).step c = inside depth := by
  simp [Brackets.step, inside, hslash, hquote]

/-- A character of a string stays inside of it, escaped or not. -/
theorem sound_character (depth : Nat) (start cs : List Char) (hquote : cs.head? ≠ some '"') :
    Sound limit (inside depth) (inside depth) cs (fun _ => True) (character start cs) := by
  have hslash : IsPlain '\\' := .inr (by decide)
  unfold character
  split
  · exact .malformed _ _
  · rename_i a b c d e rest
    split
    · exact .malformed _ _
    · rename_i first hu
      have hm : Moves (inside depth) (inside depth) ('\\' :: 'u' :: a :: b :: c :: d :: e :: rest)
          (e :: rest) :=
        .cons hslash (.cons (.inr (by decide)) (moves_of_unit? hu depth _))
      have hunit : Sound limit _ _ _ _ _ := sound_escapedUnit depth first (e :: rest)
      split
      · rename_i fault hf
        exact .mono hm (hunit.failed hf)
      · rename_i r _ hr
        exact .ok (hm.trans (hunit.moves _ hr)) trivial
  · exact .malformed _ _
  · exact .malformed _ _
  · rename_i c rest _ _
    split
    · rename_i e he
      exact .ok (.cons hslash (.cons (escaped?_plain he) (.refl _ rest))) trivial
    · exact .malformed _ _
  · rename_i c rest _ _ hlast hescape
    split
    · exact .malformed _ _
    · refine .ok (.cons (.inr (Nat.not_lt.mp ‹_›)) ?_) trivial
      rw [step_inside]
      · exact .refl _ rest
      · intro hc
        cases rest with
        | nil => exact hlast hc rfl
        | cons d ds => exact hescape d ds hc rfl
      · exact fun h => hquote (congrArg some h)

/-- A string ends with its quote, and the brackets in it count for nothing. -/
theorem sound_stringBody (depth : Nat) (bound start : List Char) : ∀ (done cs : List Char)
    (h : cs.length ≤ bound.length),
    Sound limit (inside depth) (outside depth) cs (fun _ => True) (stringBody bound start done cs h)
  | done, cs, h => by
      rw [stringBody]
      split
      · rename_i hq
        exact .ok (.head (a := inside depth) (by decide) hq) trivial
      · rename_i hq
        have hc : Sound limit _ _ _ _ _ := sound_character depth start cs hq
        split
        · rename_i fault hf
          exact hc.failed hf
        · rename_i r hlt hr
          exact .mono (hc.moves _ hr) (sound_stringBody depth bound start (r.1 :: done) r.2 _)
termination_by _ cs => cs.length

/-! ### Words and numbers -/

/-- The words of JSON are made of simple characters. -/
theorem isSimple_of_mem_words {w : String × Datum} (hw : w ∈ words) : ∀ c ∈ w.1.toList, IsSimple c := by
  have hall : (words.all fun w => w.1.toList.all fun c => decide (IsSimple c)) = true := by
    decide +kernel
  simpa only [List.all_eq_true, decide_eq_true_eq] using List.all_eq_true.mp hall w hw

/-- A word opens and closes nothing. -/
theorem moves_of_word? {cs : List Char} {d : Datum} {n : Nat} (h : word? cs = some (d, n))
    (depth : Nat) : Moves (outside depth) (outside depth) cs (cs.drop n) := by
  obtain ⟨w, hw, h⟩ := List.exists_of_findSome?_eq_some h
  split at h
  · rename_i hp
    cases h
    obtain ⟨rest, rfl⟩ := List.isPrefixOf_iff_prefix.mp hp
    rw [← String.length_toList, List.drop_left]
    have hsimple := isSimple_of_mem_words hw
    exact .quiet (fun c hc => ⟨(hsimple c hc).isPlain, (hsimple c hc).2.1⟩) depth rest
  · cases h

section
variable (depth : Nat)

/-- A run of digits. -/
theorem moves_digits (cs : List Char) :
    Moves (outside depth) (outside depth) cs (cs.drop (cs.takeWhile Char.isDigit).length) :=
  .run (fun _ hc => ⟨(isSimple_of_isDigit hc).isPlain, (isSimple_of_isDigit hc).2.1⟩) depth cs

/-- A quiet character and what follows it. -/
theorem moves_cons {c : Char} (hc : IsPlain c ∧ IsQuiet c) {cs rest : List Char}
    (h : Moves (outside depth) (outside depth) cs rest) :
    Moves (outside depth) (outside depth) (c :: cs) rest := by
  refine .cons hc.1 ?_
  rwa [step_of_isQuiet hc.2]

theorem moves_head {c : Char} (hc : IsPlain c ∧ IsQuiet c) {cs : List Char} (h : cs.head? = some c) :
    Moves (outside depth) (outside depth) cs cs.tail := by
  have hm := Moves.head (a := outside depth) hc.1 h
  rwa [step_of_isQuiet hc.2] at hm

/-- The digits of a number open and close nothing. -/
theorem moves_wholeDigits (cs : List Char) :
    Moves (outside depth) (outside depth) cs (cs.drop (wholeDigits cs).length) := by
  unfold wholeDigits
  split
  · exact moves_cons depth (by decide) (.refl _ _)
  · exact moves_digits depth cs

/-- The fraction of a number, with the point before its digits. -/
theorem moves_fraction (cs : List Char) :
    Moves (outside depth) (outside depth) cs
      (cs.drop (if (fractionDigits cs).isEmpty then 0 else (fractionDigits cs).length + 1)) := by
  split
  · exact .refl _ cs
  · rename_i hne
    unfold fractionDigits at hne ⊢
    split
    · exact moves_cons depth (by decide) (moves_digits depth _)
    · simp at hne

theorem moves_of_exponent? {cs : List Char} {e : Int} {n : Nat} (h : exponent? cs = some (e, n)) :
    Moves (outside depth) (outside depth) cs (cs.drop n) := by
  cases cs with
  | nil => cases h
  | cons c cs =>
      simp only [exponent?, Option.ite_none_right_eq_some, Option.ite_none_left_eq_some,
        Option.some.injEq, Prod.mk.injEq] at h
      obtain ⟨hc, -, -, rfl⟩ := h
      have hc : IsPlain c ∧ IsQuiet c := by rcases hc with rfl | rfl <;> decide
      -- the digits start after a sign, or at once
      by_cases hs : (cs.head? = some '-' || cs.head? = some '+') = true
      · have hsign : Moves (outside depth) (outside depth) cs cs.tail := by
          rcases Bool.or_eq_true_iff.mp hs with hs | hs
          · exact moves_head depth (by decide) (of_decide_eq_true hs)
          · exact moves_head depth (by decide) (of_decide_eq_true hs)
        rw [if_pos hs, if_pos hs, ← List.drop_drop, List.drop_succ_cons, List.drop_one]
        exact moves_cons depth hc (hsign.trans (moves_digits depth cs.tail))
      · rw [if_neg hs, if_neg hs, ← List.drop_drop]
        exact moves_cons depth hc (moves_digits depth cs)

/-- A sign, if there is one. -/
theorem moves_sign (cs : List Char) :
    Moves (outside depth) (outside depth) cs (cs.drop (if cs.head? = some '-' then 1 else 0)) := by
  split
  · rw [List.drop_one]
    exact moves_head depth (c := '-') (by decide) ‹_›
  · exact .refl _ cs

end

theorem wholeDigits_isPrefix (cs : List Char) : wholeDigits cs <+: cs := by
  unfold wholeDigits
  split
  · exact ⟨_, rfl⟩
  · exact List.takeWhile_prefix _

theorem isDigit_of_mem_wholeDigits {cs : List Char} {c : Char} (h : c ∈ wholeDigits cs) :
    c.isDigit = true := by
  unfold wholeDigits at h
  split at h
  · rw [List.mem_singleton.mp h]
    rfl
  · exact List.mem_takeWhile_imp h

/-- What a number at the start of a text is: the run of digits of its whole part, after a sign, and an
integer or a double unless that run is too long. -/
theorem number?_eq_some {cs : List Char} {x : Except Fault Datum} {n : Nat}
    (h : number? cs = some (x, n)) (depth : Nat) :
    Moves (outside depth) (outside depth) cs (cs.drop n) ∧
      ((∃ d, x = .ok d ∧ d.nesting = 0) ∨ (x = .error .longInteger ∧ LongRun cs)) := by
  unfold number? at h
  extract_lets negative unsigned whole part partLength length double at h
  have hunsigned : unsigned = cs.drop (if negative then 1 else 0) := by
    by_cases hn : negative
    · simp only [unsigned, if_pos hn]
    · simp only [unsigned, if_neg hn, List.drop_zero]
  have hsign : Moves (outside depth) (outside depth) cs unsigned := hunsigned ▸ moves_sign depth cs
  have hdecimal : Moves (outside depth) (outside depth) cs (cs.drop length) := by
    rw [← List.drop_drop, ← List.drop_drop, ← hunsigned]
    exact hsign.trans ((moves_wholeDigits depth unsigned).trans (moves_fraction depth _))
  have hwhole : whole <:+: cs :=
    (wholeDigits_isPrefix unsigned).isInfix.trans hsign.isSuffix.isInfix
  clear_value length
  split at h
  · cases h
  · split at h
    · rename_i e taken he
      cases h
      rw [← List.drop_drop]
      exact ⟨hdecimal.trans (moves_of_exponent? depth he), .inl ⟨_, rfl, rfl⟩⟩
    · split at h
      · cases h
        exact ⟨hdecimal, .inl ⟨_, rfl, rfl⟩⟩
      · split at h
        · rename_i hlong
          cases h
          exact ⟨hdecimal, .inr ⟨rfl, whole, hwhole, fun _ => isDigit_of_mem_wholeDigits, hlong⟩⟩
        · cases h
          exact ⟨hdecimal, .inl ⟨_, rfl, rfl⟩⟩

theorem nesting_of_mem_words {w : String × Datum} (hw : w ∈ words) : w.2.nesting = 0 := by
  simp only [words, List.mem_cons, List.not_mem_nil, or_false] at hw
  rcases hw with rfl | rfl | rfl | rfl | rfl | rfl <;> rfl

/-- **A scalar is read without a change of levels.** -/
theorem sound_scalar (depth : Nat) (cs : List Char) :
    Sound limit (outside depth) (outside depth) cs (fun d => d.nesting = 0) (scalar cs) := by
  have hscalar : ∀ x n, (((word? cs).map fun w => (.ok w.1, w.2)) <|> number? cs) = some (x, n) →
      Moves (outside depth) (outside depth) cs (cs.drop n) ∧
        ((∃ d, x = .ok d ∧ d.nesting = 0) ∨ (x = .error .longInteger ∧ LongRun cs)) := by
    intro x n h
    cases hw : word? cs with
    | none =>
        rw [hw] at h
        exact number?_eq_some h depth
    | some w =>
        rw [hw] at h
        cases h
        refine ⟨moves_of_word? hw depth, .inl ⟨_, rfl, ?_⟩⟩
        obtain ⟨v, hv, h⟩ := List.exists_of_findSome?_eq_some hw
        split at h
        · cases h
          exact nesting_of_mem_words hv
        · cases h
  unfold scalar
  split
  · rename_i d n h
    obtain ⟨hm, ⟨d', hd, hd'⟩ | ⟨hd, -⟩⟩ := hscalar _ _ h
    · cases hd
      split
      · exact .ok hm hd'
      · exact .malformed _ _
    · cases hd
  · rename_i fault n h
    rcases (hscalar _ _ h).2 with ⟨d, hd, -⟩ | ⟨hf, hlong⟩
    · cases hd
    · cases hf
      exact ⟨nofun, nofun, fun _ => hlong, nofun⟩
  · exact .malformed _ _

end SampleSchema.JsonText
