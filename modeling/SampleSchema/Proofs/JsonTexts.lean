import SampleSchema.Json.Compact
import SampleSchema.Proofs.JsonReading

/-!
# Written texts of JSON

What is written as JSON without any white space is read back: texts, truth values, arrays and objects.

* `Written` says it of one value, and there is one lemma `written_…` for each way to write one.
-/

namespace SampleSchema.JsonText

variable {α : Type} {p : α × List Char → Prop}

/-- Whether a reading gives a value and leaves a rest. -/
def Gives (x : Except Fault { r : α × List Char // p r }) (a : α) (rest : List Char) : Prop :=
  ∃ h, x = .ok ⟨(a, rest), h⟩

/-! ### Texts -/

/-- The number of a control character is written with four digits. -/
theorem hex_of_low : ∀ n < 0x20,
    (Text.hex 4 n).toList = ['0', '0', (n / 16).digitChar, (n % 16).digitChar] ∧
      unit? '0' '0' (n / 16).digitChar (n % 16).digitChar = some n := by
  decide +kernel

/-- The number of a control character is no half of a pair. -/
theorem escapedUnit_of_low {n : Nat} (hlow : n < 0x20) (rest : List Char) :
    Gives (escapedUnit n rest) (Char.ofNat n) rest := by
  have hhigh : isHighSurrogate n = false := by simp [isHighSurrogate]; omega
  have hlow' : isLowSurrogate n = false := by simp [isLowSurrogate]; omega
  have hchar : unitChar n = Char.ofNat n := by rw [unitChar, hhigh, hlow']; rfl
  rw [← hchar]
  refine ⟨Nat.le_refl _, ?_⟩
  -- only the first half of a surrogate pair looks at what follows
  fun_cases escapedUnit n rest with
  | case1 => simp_all
  | case2 => simp_all
  | case3 => simp_all
  | case4 => rw [escapedUnit, if_neg (by simp [hhigh])]
  | case5 => rw [escapedUnit]; assumption

/-- A control character is read from the escape that writes it. -/
theorem character_of_unit {a b c d : Char} {n : Nat} (hn : unit? a b c d = some n) (hlow : n < 0x20)
    (start : List Char) (next : Char) (rest : List Char) :
    Gives (character start ('\\' :: 'u' :: a :: b :: c :: d :: next :: rest)) (Char.ofNat n)
      (next :: rest) := by
  obtain ⟨_, hunit⟩ := escapedUnit_of_low hlow (next :: rest)
  refine ⟨by simp only [List.length_cons]; omega, ?_⟩
  simp only [character, hn, hunit]

/-- Other characters but the backslash are read as they stand. -/
theorem character_of_plain {c : Char} (hslash : c ≠ '\\') (hlow : ¬ c.toNat < 0x20)
    (start rest : List Char) : Gives (character start (c :: rest)) c rest := by
  refine ⟨Nat.lt_succ_self _, ?_⟩
  rw [character, if_neg hlow]
  all_goals simp [hslash]

/-- A character stands inside a text escaped or as it is, and no quote stands as it is. -/
theorem escaped_cases (c : Char) :
    (∃ e, (Json.escaped c).toList = ['\\', e] ∧ escaped? e = some c ∧ e ≠ 'u') ∨
      (c.toNat < 0x20 ∧ (Json.escaped c).toList = '\\' :: 'u' :: (Text.hex 4 c.toNat).toList) ∨
      ((Json.escaped c).toList = [c] ∧ c ≠ '"' ∧ c ≠ '\\' ∧ ¬ c.toNat < 0x20) := by
  by_cases hmark : c = '"' ∨ c = '\\' ∨ c = '\n' ∨ c = '\r' ∨ c = '\t' ∨ c = '\x08' ∨ c = '\x0c'
  · left
    rcases hmark with rfl | rfl | rfl | rfl | rfl | rfl | rfl <;> exact ⟨_, rfl, rfl, by decide⟩
  · right
    simp only [not_or] at hmark
    by_cases hlow : c.toNat < 0x20
    · exact .inl ⟨hlow, by simp [Json.escaped, hmark, hlow]⟩
    · exact .inr ⟨by simp [Json.escaped, hmark, hlow], hmark.1, hmark.2.1, hlow⟩

/-- What writes a character does not start with a quote. -/
theorem head?_escaped (c : Char) (rest : List Char) :
    ((Json.escaped c).toList ++ rest).head? ≠ some '"' := by
  obtain ⟨e, he, -⟩ | ⟨-, he⟩ | ⟨he, hquote, -⟩ := escaped_cases c
  · rw [he]
    exact fun h => absurd (Option.some.inj h) (by decide)
  · rw [he]
    exact fun h => absurd (Option.some.inj h) (by decide)
  · rw [he]
    exact fun h => hquote (Option.some.inj h)

/-- A character is read back as it stands inside a text. -/
theorem character_escaped (c : Char) (start : List Char) {rest : List Char} (hrest : rest ≠ []) :
    Gives (character start ((Json.escaped c).toList ++ rest)) c rest := by
  obtain ⟨e, he, hc, hu⟩ | ⟨hlow, he⟩ | ⟨he, -, hslash, hlow⟩ := escaped_cases c
  · rw [he]
    refine ⟨Nat.lt_trans (Nat.lt_succ_self _) (Nat.lt_succ_self _), ?_⟩
    simp [character, hc, hu]
  · obtain ⟨hhex, hunit⟩ := hex_of_low c.toNat hlow
    obtain ⟨next, rest, rfl⟩ := List.exists_cons_of_ne_nil hrest
    have hread := character_of_unit hunit hlow start next rest
    rw [Char.ofNat_toNat] at hread
    rwa [he, hhex]
  · rw [he]
    exact character_of_plain hslash hlow start rest

/-- A string is read up to its quote. -/
theorem stringBody_inner (limit start rest : List Char) : ∀ (cs done : List Char)
    {text : List Char} (_ : text = inner cs ++ '"' :: rest) (bound : text.length ≤ limit.length),
    Gives (stringBody limit start done text bound) (String.ofList (done.reverse ++ cs)) rest
  | [], done, _, rfl, bound => by
      rw [List.append_nil]
      unfold stringBody
      exact ⟨_, rfl⟩
  | c :: cs, done, text, htext, bound => by
      have hcons : text = (Json.escaped c).toList ++ (inner cs ++ '"' :: rest) := by
        rw [htext, inner, List.flatMap_cons, List.append_assoc]
        rfl
      have hread : Gives (character start ((Json.escaped c).toList ++ (inner cs ++ '"' :: rest))) c
          (inner cs ++ '"' :: rest) := character_escaped c start (by simp)
      rw [← hcons] at hread
      obtain ⟨hlt, hread⟩ := hread
      have hquote : text.head? ≠ some '"' := hcons ▸ head?_escaped c _
      obtain ⟨hle, ih⟩ := stringBody_inner limit start rest cs (c :: done) rfl
        (Nat.le_trans (Nat.le_of_lt hlt) bound)
      rw [List.reverse_cons, List.append_assoc, List.singleton_append] at ih
      refine ⟨hle, ?_⟩
      unfold stringBody
      rw [if_neg hquote]
      simp only [hread]
      exact ih

/-! ### Values -/

/-- Whether characters write a value: they are read to it whatever follows, if there is room for so many
levels, and the first one is no white space and ends no array. -/
structure Written (levels : Nat) (cs : List Char) (d : Datum) : Prop where
  head  : ∃ c rest, cs = c :: rest ∧ isSpace c = false ∧ c ≠ ']'
  value : ∀ room rest, levels ≤ room → Gives (value room (cs ++ rest)) d rest

theorem Written.mono {m n : Nat} {cs : List Char} {d : Datum} (h : Written m cs d) (hle : m ≤ n) :
    Written n cs d where
  head  := h.head
  value := fun room rest hroom => h.value room rest (Nat.le_trans hle hroom)

/-- A text is read to the value that its characters give, if no blank or mark stands before it. -/
theorem read_of_gives {room : Nat} {cs : List Char} {d : Datum} (hskip : skipSpace cs = cs)
    (hmark : cs.head? ≠ some '\ufeff') (h : Gives (value room cs) d []) :
    read room (String.ofList cs) = .ok d := by
  obtain ⟨_, hvalue⟩ := h
  rw [read_eq, String.toList_ofList, hskip, if_neg hmark, hvalue]
  rfl

theorem quoted_append (s : String) (rest : List Char) :
    quoted s ++ rest = '"' :: (inner s.toList ++ '"' :: rest) := by
  simp [quoted]

/-- What stands between quotes is read back. -/
theorem stringBody_quoted (s : String) (rest : List Char) :
    Gives (stringBody (inner s.toList ++ '"' :: rest) ('"' :: (inner s.toList ++ '"' :: rest)) []
      (inner s.toList ++ '"' :: rest) (Nat.le_refl _)) s rest := by
  have hread := stringBody_inner (inner s.toList ++ '"' :: rest)
    ('"' :: (inner s.toList ++ '"' :: rest)) rest s.toList [] rfl (Nat.le_refl _)
  rwa [List.reverse_nil, List.nil_append, String.ofList_toList] at hread

/-- A quoted text writes the text. -/
theorem written_quoted (s : String) : Written 0 (quoted s) (.string s) where
  head := ⟨'"', _, rfl, rfl, by decide⟩
  value room rest _ := by
    obtain ⟨hle, hread⟩ := stringBody_quoted s rest
    rw [quoted_append]
    refine ⟨Nat.lt_succ_of_le hle, ?_⟩
    rw [JsonText.value]
    simp only [List.head?_cons, List.tail_cons, dite_true, hread]
    rfl

/-- A word at the start of a text is its value. -/
theorem value_of_word? {c : Char} {cs : List Char} {d : Datum} {n : Nat}
    (hc : c ≠ '"' ∧ c ≠ '[' ∧ c ≠ '\x7b') (hword : word? (c :: cs) = some (d, n + 1)) (room : Nat) :
    Gives (value room (c :: cs)) d (cs.drop n) := by
  have hhead : ∀ {e : Char}, c ≠ e → (c :: cs).head? ≠ some e := fun h he => h (Option.some.inj he)
  refine ⟨Nat.lt_succ_of_le (by simp), ?_⟩
  rw [value, dif_neg (hhead hc.1), dif_neg (hhead hc.2.1), dif_neg (hhead hc.2.2), scalar, hword]
  rfl

theorem word?_boolText (b : Bool) (rest : List Char) :
    word? (boolText b ++ rest) = some (.bool b, (boolText b).length) := by
  cases b with
  | true =>
      have hlength : "true".length = 4 := by decide
      simp [word?, words, boolText, hlength]
  | false =>
      have hlength : "false".length = 5 := by decide
      simp [word?, words, boolText, hlength]

/-- A word writes its truth value. -/
theorem written_boolText (b : Bool) : Written 0 (boolText b) (.bool b) where
  head := by cases b <;> exact ⟨_, _, rfl, rfl, by decide⟩
  value room rest _ := by
    have hword := word?_boolText b rest
    cases b with
    | true => exact value_of_word? (by decide) hword room
    | false => exact value_of_word? (by decide) hword room

/-- Nothing is skipped where no blank stands. -/
theorem skipSpace_of_head {c : Char} (hc : isSpace c = false) (rest : List Char) :
    skipSpace (c :: rest) = c :: rest := by
  rw [skipSpace, hc, if_neg Bool.false_ne_true]

theorem listed_cons_cons (cs ds : List Char) (css : List (List Char)) (rest : List Char) :
    listed (cs :: ds :: css) ++ rest = cs ++ ',' :: (listed (ds :: css) ++ rest) := by
  simp [listed]

/-- There is no blank in front of what writes a value. -/
theorem Written.skipSpace_eq {n : Nat} {cs : List Char} {d : Datum} (h : Written n cs d)
    (rest : List Char) :
    skipSpace (cs ++ rest) = cs ++ rest := by
  obtain ⟨c, tail, rfl, hc, -⟩ := h.head
  exact skipSpace_of_head hc (tail ++ rest)

/-- A text that writes a value is read as a whole. -/
theorem Written.read {n room : Nat} {cs : List Char} {d : Datum} (h : Written n cs d)
    (hroom : n ≤ room) (hmark : cs.head? ≠ some '\ufeff') :
    JsonText.read room (String.ofList cs) = .ok d := by
  have hskip := h.skipSpace_eq []
  have hvalue := h.value room [] hroom
  rw [List.append_nil] at hskip hvalue
  exact read_of_gives hskip hmark hvalue

/-- Items between commas are read up to the closing bracket. -/
theorem items_listed {n room : Nat} (hroom : n ≤ room) (limit rest : List Char) :
    ∀ {ws : List (List Char × Datum)} {w : List Char × Datum}
    (_ : ∀ v ∈ w :: ws, Written n v.1 v.2) (done : List Datum)
    {text : List Char} (_ : text = listed ((w :: ws).map Prod.fst) ++ ']' :: rest)
    (bound : text.length ≤ limit.length),
    Gives (items room limit done text bound) (done.reverse ++ (w :: ws).map Prod.snd) rest
  | [], w, h, done, text, htext, bound => by
      have hclose : text = w.1 ++ ']' :: rest := by simpa [listed] using htext
      subst hclose
      obtain ⟨hlt, hvalue⟩ := (h w List.mem_cons_self).value room (']' :: rest) hroom
      have hle : rest.length ≤ limit.length := by
        simp only [List.length_append, List.length_cons] at bound
        omega
      refine ⟨hle, ?_⟩
      rw [items, hvalue]
      simp only [bind, Except.bind, skipSpace_of_head (show isSpace ']' = false from rfl),
        List.head?_cons, dite_true]
      rw [List.reverse_cons]
      rfl
  | w' :: ws, w, h, done, text, htext, bound => by
      obtain ⟨hw, hws⟩ := List.forall_mem_cons.mp h
      have hcomma : text = w.1 ++ ',' :: (listed ((w' :: ws).map Prod.fst) ++ ']' :: rest) := by
        rw [htext]
        exact listed_cons_cons _ _ _ _
      have hlater : skipSpace (listed ((w' :: ws).map Prod.fst) ++ ']' :: rest) =
          listed ((w' :: ws).map Prod.fst) ++ ']' :: rest := by
        rw [List.map_cons, listed, List.append_assoc]
        exact (hws w' List.mem_cons_self).skipSpace_eq _
      subst hcomma
      obtain ⟨hlt, hvalue⟩ :=
        hw.value room (',' :: (listed ((w' :: ws).map Prod.fst) ++ ']' :: rest)) hroom
      have hbound : (listed ((w' :: ws).map Prod.fst) ++ ']' :: rest).length ≤ limit.length := by
        simp only [List.length_append, List.length_cons] at bound ⊢
        omega
      have ih := items_listed hroom limit rest hws (w.2 :: done) rfl hbound
      rw [List.reverse_cons, List.append_assoc] at ih
      obtain ⟨hle, ih⟩ := ih
      refine ⟨hle, ?_⟩
      rw [items, hvalue]
      simp only [bind, Except.bind, skipSpace_of_head (show isSpace ',' = false from rfl),
        List.head?_cons, List.tail_cons, hlater]
      rw [dif_neg (by decide), dif_pos trivial]
      exact ih

/-- An array of written values writes their list and needs one level more. -/
theorem written_array {n : Nat} {ws : List (List Char × Datum)} (h : ∀ w ∈ ws, Written n w.1 w.2) :
    Written (n + 1) (arrayText (ws.map Prod.fst)) (.list (ws.map Prod.snd)) where
  head := ⟨'[', _, rfl, rfl, by decide⟩
  value room rest hroom := by
    obtain ⟨room, rfl⟩ : ∃ inner, room = inner + 1 := ⟨room - 1, by omega⟩
    have hchars : arrayText (ws.map Prod.fst) ++ rest =
        '[' :: (listed (ws.map Prod.fst) ++ ']' :: rest) := by
      simp [arrayText]
    rw [hchars]
    cases ws with
    | nil =>
        refine ⟨by simp only [List.length_cons, List.length_append]; omega, ?_⟩
        rw [JsonText.value]
        rfl
    | cons w ws =>
        obtain ⟨c, tail, hc, -, hclose⟩ := (h w List.mem_cons_self).head
        have hinside : skipSpace (listed ((w :: ws).map Prod.fst) ++ ']' :: rest) =
            listed ((w :: ws).map Prod.fst) ++ ']' :: rest := by
          rw [List.map_cons, listed, List.append_assoc]
          exact (h w List.mem_cons_self).skipSpace_eq _
        have hhead : (listed ((w :: ws).map Prod.fst) ++ ']' :: rest).head? ≠ some ']' := by
          rw [List.map_cons, listed, hc]
          exact fun e => hclose (Option.some.inj e)
        obtain ⟨hle, hitems⟩ := items_listed (Nat.le_of_succ_le_succ hroom)
          (listed ((w :: ws).map Prod.fst) ++ ']' :: rest) rest h [] rfl (Nat.le_refl _)
        refine ⟨Nat.lt_succ_of_le hle, ?_⟩
        rw [JsonText.value]
        simp only [List.head?_cons, List.tail_cons, hinside, dif_neg hhead, hitems]
        rw [dif_neg (by decide), dif_pos trivial]
        rfl

theorem memberText_append (name : String) (cs rest : List Char) : memberText name cs ++ rest =
    '"' :: (inner name.toList ++ '"' :: ':' :: (cs ++ rest)) := by
  rw [memberText, List.append_assoc, quoted_append]
  rfl

section
variable {n room : Nat} {cs : List Char} {d : Datum} (hw : Written n cs d) (hroom : n ≤ room)
  (limit : List Char) (done : List (Datum × Datum)) (name : String)
include hw hroom

/-- The value of a member is read after its colon. -/
theorem Written.value_of_member (rest : List Char) :
    Gives (JsonText.value room (skipSpace (skipSpace (':' :: (cs ++ rest))).tail)) d rest := by
  rw [skipSpace_of_head rfl, List.tail_cons, hw.skipSpace_eq]
  exact hw.value room rest hroom

theorem members_last (rest : List Char) {text : List Char}
    (htext : text = memberText name cs ++ '\x7d' :: rest) (bound : text.length ≤ limit.length) :
    Gives (members room limit done text bound) (Datum.insert (.string name) d done) rest := by
  rw [memberText_append] at htext
  subst htext
  obtain ⟨_, hname⟩ := stringBody_quoted name (':' :: (cs ++ '\x7d' :: rest))
  obtain ⟨_, hvalue⟩ := hw.value_of_member hroom ('\x7d' :: rest)
  have hle : rest.length ≤ limit.length := by
    simp only [List.length_append, List.length_cons] at bound
    omega
  refine ⟨hle, ?_⟩
  rw [members]
  simp only [List.head?_cons, List.tail_cons, dite_true, hname, bind, Except.bind, hvalue,
    skipSpace_of_head (show isSpace '\x7d' = false from rfl)]
  rfl

theorem members_next (later rest : List Char) {es : List (Datum × Datum)} {text : List Char}
    (htext : text = memberText name cs ++ ',' :: later) (bound : text.length ≤ limit.length)
    (h : ∀ bound, Gives (members room limit (Datum.insert (.string name) d done) (skipSpace later) bound)
      es rest) : Gives (members room limit done text bound) es rest := by
  rw [memberText_append] at htext
  subst htext
  obtain ⟨_, hname⟩ := stringBody_quoted name (':' :: (cs ++ ',' :: later))
  obtain ⟨_, hvalue⟩ := hw.value_of_member hroom (',' :: later)
  have hbound : (skipSpace later).length ≤ limit.length := by
    have hle := length_skipSpace_le later
    simp only [List.length_append, List.length_cons] at bound
    omega
  obtain ⟨hle, h⟩ := h hbound
  refine ⟨hle, ?_⟩
  rw [members]
  simp only [List.head?_cons, List.tail_cons, dite_true, hname, bind, Except.bind, hvalue,
    skipSpace_of_head (show isSpace ',' = false from rfl)]
  exact h

end

/-- The entries of a mapping with further members. -/
def extended (entries : List (Datum × Datum)) (ms : List (String × List Char × Datum)) :
    List (Datum × Datum) :=
  ms.foldl (fun es m => Datum.insert (.string m.1) m.2.2 es) entries

theorem members_listed {n room : Nat} (hroom : n ≤ room) (limit rest : List Char) :
    ∀ {ms : List (String × List Char × Datum)} {m : String × List Char × Datum}
    (_ : ∀ v ∈ m :: ms, Written n v.2.1 v.2.2)
    (done : List (Datum × Datum)) {text : List Char}
    (_ : text = listed ((m :: ms).map fun m => memberText m.1 m.2.1) ++ '\x7d' :: rest)
    (bound : text.length ≤ limit.length),
    Gives (members room limit done text bound) (extended done (m :: ms)) rest
  | [], m, h, done, text, htext, bound => by
      refine members_last (h m List.mem_cons_self) hroom limit done m.1 rest ?_ bound
      simpa [listed] using htext
  | m' :: ms, m, h, done, text, htext, bound => by
      obtain ⟨hm, hms⟩ := List.forall_mem_cons.mp h
      have hlater : ∀ cs, skipSpace (listed ((m' :: ms).map fun m => memberText m.1 m.2.1) ++ cs) =
          listed ((m' :: ms).map fun m => memberText m.1 m.2.1) ++ cs := by
        intro cs
        rw [List.map_cons, listed, List.append_assoc, memberText_append]
        exact skipSpace_of_head rfl _
      refine members_next hm hroom limit done m.1 _ rest (htext.trans (listed_cons_cons _ _ _ _)) bound
        fun bound => ?_
      exact members_listed hroom limit rest hms (Datum.insert (.string m.1) m.2.2 done) (hlater _) bound

/-- The text of an object with members. -/
def extendedText (ms : List (String × List Char × Datum)) : List Char :=
  objectText (ms.map fun m => (m.1, m.2.1))

section
variable {n room : Nat} {m : String × List Char × Datum} {ms : List (String × List Char × Datum)}
  (h : ∀ v ∈ m :: ms, Written n v.2.1 v.2.2) (hroom : n + 1 ≤ room)
include h hroom

theorem value_object : Gives (value room (extendedText (m :: ms))) (.map (extended [] (m :: ms))) [] := by
  obtain ⟨room, rfl⟩ : ∃ inner, room = inner + 1 := ⟨room - 1, by omega⟩
  obtain ⟨rest, hrest⟩ : ∃ rest, listed ((m :: ms).map fun m => memberText m.1 m.2.1) ++ ['\x7d'] =
      '"' :: rest := by
    rw [List.map_cons, listed, List.append_assoc, memberText_append]
    exact ⟨_, rfl⟩
  obtain ⟨hle, hmembers⟩ := members_listed (Nat.le_of_succ_le_succ hroom) ('"' :: rest) [] h []
    hrest.symm (Nat.le_refl _)
  have htext : extendedText (m :: ms) = '\x7b' :: '"' :: rest := by
    rw [extendedText, objectText, List.map_map]
    exact congrArg _ hrest
  rw [htext]
  refine ⟨Nat.lt_succ_of_le hle, ?_⟩
  rw [value]
  simp only [List.head?_cons, List.tail_cons,
    skipSpace_of_head (show isSpace '"' = false from rfl), hmembers]
  rw [dif_neg (by decide), dif_neg (by decide), dif_pos trivial, dif_neg (by decide)]
  rfl

/-- A text that writes an object is read as a whole. -/
theorem read_object :
    read room (String.ofList (extendedText (m :: ms))) = .ok (.map (extended [] (m :: ms))) :=
  read_of_gives (skipSpace_of_head rfl _) (fun e => absurd (Option.some.inj e) (by decide))
    (value_object h hroom)

end

end SampleSchema.JsonText
