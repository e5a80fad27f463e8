import SampleSchema.Proofs.Mirrors
import SampleSchema.Proofs.JsonCharacters

/-!
# Reading JSON values

What a value that is read shows of its text (`JsonText.Shows`): its keys are texts, and somewhere the
text has as many open brackets as the value has levels.  A reader of a value moves to where the value
ends, and it fails for the length of an integer or for the lack of room only where the text says so
(`JsonText.sound_value`).
-/

namespace SampleSchema

namespace Datum

/-- Whether all keys of mappings in a value are texts. -/
def HasTextKeys (d : Datum) : Prop :=
  ∀ es : List (Datum × Datum), Within (.map es) d → ∀ e ∈ es, ∃ s, e.1 = .string s

/-- What is no collection has no keys. -/
theorem hasTextKeys_of_nesting {d : Datum} (h : d.nesting = 0) : d.HasTextKeys := by
  intro es hes
  cases hes with
  | self | list | tuple | map => cases h

/-- A list has texts for keys if its items have. -/
theorem HasTextKeys.list {ds : List Datum} (h : ∀ d ∈ ds, d.HasTextKeys) :
    (Datum.list ds).HasTextKeys := by
  intro es hes
  cases hes with
  | list hd hes => exact h _ hd es hes

/-- A mapping has texts for keys if its own keys are texts and its values have such. -/
theorem HasTextKeys.map {es : List (Datum × Datum)}
    (h : ∀ e ∈ es, (∃ s, e.1 = .string s) ∧ e.2.HasTextKeys) : (Datum.map es).HasTextKeys := by
  intro es' hes
  cases hes with
  | self => exact fun e he => (h e he).1
  | map he hes => exact (h _ he).2 es' hes

/-- A key that is a text shows no long number. -/
theorem HasTextKeys.not_hasLongKey {d : Datum} (h : d.HasTextKeys) : ¬ d.HasLongKey := by
  rintro ⟨es, e, hes, he, hlong⟩
  obtain ⟨s, hs⟩ := h es hes e he
  rw [hs] at hlong
  cases hlong

/-- What holds of no levels and of the levels of each value holds of their maximum. -/
theorem nestings_induction {P : Nat → Prop} (h₀ : P 0) : ∀ {ds : List Datum},
    (∀ d ∈ ds, P d.nesting) → P (nestings ds)
  | [], _      => h₀
  | d :: ds, h => by
      obtain ⟨hd, hds⟩ := List.forall_mem_cons.mp h
      rw [nestings, Nat.max_def]
      split
      · exact nestings_induction h₀ hds
      · exact hd

/-- What holds of no levels and of the levels of each value of a mapping holds of their maximum. -/
theorem entryNestings_induction {P : Nat → Prop} (h₀ : P 0) : ∀ {es : List (Datum × Datum)},
    (∀ e ∈ es, P e.2.nesting) → P (entryNestings es)
  | [], _           => h₀
  | (_, d) :: es, h => by
      obtain ⟨hd, hes⟩ := List.forall_mem_cons.mp h
      rw [entryNestings, Nat.max_def]
      split
      · exact entryNestings_induction h₀ hes
      · exact hd

theorem sameKey_string_iff {k : Datum} {name : String} :
    sameKey k (.string name) = true ↔ k = .string name := by
  cases k with
  | time clock offset => cases offset <;> simp [sameKey, quantity?]
  | _ => simp [sameKey, quantity?]

/-- An entry that is put under a text is the only one that comes in. -/
theorem mem_insert_string {name : String} {d : Datum} {e : Datum × Datum} :
    ∀ {es : List (Datum × Datum)}, e ∈ insert (.string name) d es → e ∈ es ∨ e = (.string name, d)
  | [], h          => .inr (List.mem_singleton.mp h)
  | (k, v) :: es, h => by
      rw [insert] at h
      split at h
      · rename_i hk
        rcases List.mem_cons.mp h with rfl | h
        · rw [sameKey_string_iff.mp hk]
          exact .inr rfl
        · exact .inl (List.mem_cons_of_mem _ h)
      · rcases List.mem_cons.mp h with rfl | h
        · exact .inl List.mem_cons_self
        · exact (mem_insert_string h).imp_left (List.mem_cons_of_mem _)

end Datum

namespace JsonText

/-- Whether a text that starts inside of so many brackets shows a value: as many more are open somewhere
as the value has levels, and the keys in it are texts. -/
structure Shows (depth : Nat) (cs : List Char) (d : Datum) : Prop where
  reaches : Reaches (outside depth) cs (depth + d.nesting)
  keys    : d.HasTextKeys

theorem Shows.mono {depth : Nat} {as bs : List Char} {d : Datum}
    (hm : Moves (outside depth) (outside depth) as bs) (h : Shows depth bs d) : Shows depth as d :=
  ⟨hm.reaches h.reaches, h.keys⟩

/-- A value without levels needs no brackets. -/
theorem Shows.of_leaf {d : Datum} (h : d.nesting = 0) (depth : Nat) (cs : List Char) :
    Shows depth cs d :=
  ⟨.start (by rw [h]; exact Nat.le_refl _) cs, Datum.hasTextKeys_of_nesting h⟩

section
variable {depth : Nat} {as bs : List Char} (hm : Moves (outside depth) (outside (depth + 1)) as bs)
include hm

/-- A list shows one level more than its items. -/
theorem Shows.list {ds : List Datum} (h : ∀ d ∈ ds, Shows (depth + 1) bs d) :
    Shows depth as (.list ds) where
  reaches := by
    have hds : Reaches (outside (depth + 1)) bs (depth + 1 + Datum.nestings ds) :=
      Datum.nestings_induction (P := fun n => Reaches (outside (depth + 1)) bs (depth + 1 + n))
        (.start (Nat.le_refl _) bs) fun d hd => (h d hd).reaches
    rw [Datum.nesting, Nat.add_comm _ 1, ← Nat.add_assoc]
    exact hm.reaches hds
  keys := .list fun d hd => (h d hd).keys

/-- A mapping shows one level more than its values. -/
theorem Shows.map {es : List (Datum × Datum)}
    (h : ∀ e ∈ es, (∃ s, e.1 = .string s) ∧ Shows (depth + 1) bs e.2) :
    Shows depth as (.map es) where
  reaches := by
    have hes : Reaches (outside (depth + 1)) bs (depth + 1 + Datum.entryNestings es) :=
      Datum.entryNestings_induction (P := fun n => Reaches (outside (depth + 1)) bs (depth + 1 + n))
        (.start (Nat.le_refl _) bs) fun e he => (h e he).2.reaches
    rw [Datum.nesting, Nat.add_comm _ 1, ← Nat.add_assoc]
    exact hm.reaches hes
  keys := .map fun e he => ⟨(h e he).1, (h e he).2.keys⟩

end

section
variable (depth : Nat) {c : Char} {cs : List Char} (h : cs.head? = some c)
include h

/-- Past an opening bracket there is one level more. -/
theorem moves_opening (hc : c = '[' ∨ c = '\x7b') :
    Moves (outside depth) (outside (depth + 1)) cs cs.tail := by
  rcases hc with rfl | rfl
  · exact .head (a := outside depth) (by decide) h
  · exact .head (a := outside depth) (by decide) h

/-- Past a closing bracket there is one level less. -/
theorem moves_closing (hc : c = ']' ∨ c = '\x7d') :
    Moves (outside (depth + 1)) (outside depth) cs cs.tail := by
  rcases hc with rfl | rfl
  · exact .head (a := outside (depth + 1)) (by decide) h
  · exact .head (a := outside (depth + 1)) (by decide) h

theorem moves_quote (hc : c = '"') : Moves (outside depth) (inside depth) cs cs.tail := by
  subst hc
  exact .head (a := outside depth) (by decide) h

end

variable {limit : Nat}

/-- Where there is no room left, one more opening bracket is one too many. -/
theorem tooDeep_of_moves {α : Type} {p : α × List Char → Prop} {depth : Nat} {b : Brackets}
    {cs rest : List Char} {q : α → Prop}
    (hopen : Moves (outside depth) (outside (depth + 1)) cs rest) (h : depth + 0 = limit) :
    Sound limit (outside depth) b cs q
      (.error .tooDeep : Except Fault { r : α × List Char // p r }) where
  moves := nofun
  gives := nofun
  long  := nofun
  deep  := fun _ => hopen.reaches (.start (Nat.succ_le_succ (Nat.le_of_eq h.symm)) rest)

mutual

/-- A value is read with the brackets that it shows, or fails in a way that they explain. -/
theorem sound_value (levels : Nat) (cs : List Char) {depth : Nat} (h : depth + levels = limit) :
    Sound limit (outside depth) (outside depth) cs (Shows depth cs) (value levels cs) := by
  have hinside : ∀ depth, Moves (outside depth) (outside depth) cs.tail (skipSpace cs.tail) :=
    fun depth => .skipSpace depth cs.tail
  rw [value]
  split
  · rename_i hc
    refine .mono (moves_quote depth hc rfl)
      (.bind (sound_stringBody depth cs.tail cs [] cs.tail _) fun r hr _ => ?_)
    exact .ok hr (.of_leaf rfl depth cs)
  · split
    · rename_i hc
      have hopen := (moves_opening depth hc (.inl rfl)).trans (hinside (depth + 1))
      cases levels with
      | zero => exact tooDeep_of_moves hopen h
      | succ levels =>
          dsimp only
          split
          · rename_i he
            exact .ok (hopen.trans (moves_closing depth he (.inl rfl))) (.list hopen nofun)
          · have hbelow : depth + 1 + levels = limit := by omega
            have shorter : (skipSpace cs.tail).length < cs.length :=
              Nat.lt_of_le_of_lt (length_skipSpace_le cs.tail) (length_tail_lt hc)
            refine .mono hopen (.bind (sound_items levels cs.tail [] _ _ hbelow) ?_)
            intro r hr hitems
            refine .ok hr (.list hopen fun d hd => ?_)
            exact (hitems d hd).resolve_left List.not_mem_nil
    · split
      · rename_i hc
        have hopen := (moves_opening depth hc (.inr rfl)).trans (hinside (depth + 1))
        cases levels with
        | zero => exact tooDeep_of_moves hopen h
        | succ levels =>
            dsimp only
            split
            · rename_i he
              exact .ok (hopen.trans (moves_closing depth he (.inr rfl))) (.map hopen nofun)
            · have hbelow : depth + 1 + levels = limit := by omega
              have shorter : (skipSpace cs.tail).length < cs.length :=
                Nat.lt_of_le_of_lt (length_skipSpace_le cs.tail) (length_tail_lt hc)
              refine .mono hopen (.bind (sound_members levels cs.tail [] _ _ hbelow) ?_)
              intro r hr hmembers
              refine .ok hr (.map hopen fun e he => ?_)
              exact (hmembers e he).resolve_left List.not_mem_nil
      · exact (sound_scalar depth cs).imp fun d hd => .of_leaf hd depth cs
termination_by (cs.length, 0)
decreasing_by all_goals exact Prod.Lex.left _ _ shorter

theorem sound_items (levels : Nat) (bound : List Char) (done : List Datum) (cs : List Char)
    (hb : cs.length ≤ bound.length) {depth : Nat} (h : depth + 1 + levels = limit) :
    Sound limit (outside (depth + 1)) (outside depth) cs
      (fun ds => ∀ d ∈ ds, d ∈ done ∨ Shows (depth + 1) cs d) (items levels bound done cs hb) := by
  rw [items]
  refine .bind (sound_value levels cs h) fun r hr hshows => ?_
  extract_lets after
  have hafter := hr.trans (.skipSpace (depth + 1) r.val.2)
  split
  · rename_i hc
    refine .ok (hafter.trans (moves_closing depth hc (.inl rfl))) fun d hd => ?_
    rcases List.mem_cons.mp (List.mem_reverse.mp hd) with rfl | hd
    · exact .inr hshows
    · exact .inl hd
  · split
    · rename_i hc
      have shorter : (skipSpace after.tail).length < cs.length :=
        Nat.lt_of_le_of_lt (length_skipSpace_le after.tail)
          (Nat.lt_trans (length_tail_lt_of_skipSpace hc) r.property)
      have hcomma := hafter.trans ((moves_head (depth + 1) (c := ',') (by decide) hc).trans
        (.skipSpace (depth + 1) after.tail))
      refine .mono hcomma ((sound_items levels bound (r.val.1 :: done) _ _ h).imp ?_)
      intro ds hds d hd
      rcases hds d hd with hd | hd
      · rcases List.mem_cons.mp hd with rfl | hd
        · exact .inr hshows
        · exact .inl hd
      · exact .inr (hd.mono hcomma)
    · exact .malformed _ _
termination_by (cs.length, 1)
decreasing_by
  · exact Prod.Lex.right _ Nat.zero_lt_one
  · exact Prod.Lex.left _ _ shorter

theorem sound_members (levels : Nat) (bound : List Char) (done : List (Datum × Datum))
    (cs : List Char) (hb : cs.length ≤ bound.length) {depth : Nat}
    (h : depth + 1 + levels = limit) :
    Sound limit (outside (depth + 1)) (outside depth) cs
      (fun es => ∀ e ∈ es, e ∈ done ∨ (∃ s, e.1 = .string s) ∧ Shows (depth + 1) cs e.2)
      (members levels bound done cs hb) := by
  rw [members]
  split
  · rename_i hq
    refine .mono (moves_quote (depth + 1) hq rfl)
      (.bind (sound_stringBody (depth + 1) cs.tail cs [] cs.tail _) ?_)
    intro name hname _
    extract_lets after
    have hafter := hname.trans (.skipSpace (depth + 1) name.val.2)
    split
    · rename_i hc
      have hvalue : (skipSpace after.tail).length < cs.length :=
        Nat.lt_of_le_of_lt (length_skipSpace_le after.tail) (Nat.lt_of_lt_of_le
          (length_tail_lt_of_skipSpace hc)
          (Nat.le_trans name.property (Nat.le_of_lt (length_tail_lt hq))))
      have hcolon := hafter.trans ((moves_head (depth + 1) (c := ':') (by decide) hc).trans
        (.skipSpace (depth + 1) after.tail))
      have hbefore := (moves_quote (depth + 1) hq rfl).trans hcolon
      refine .mono hcolon (.bind (sound_value levels _ h) fun r hr hshows => ?_)
      extract_lets entries after
      have hafter := hr.trans (.skipSpace (depth + 1) r.val.2)
      have hentries : ∀ e ∈ entries,
          e ∈ done ∨ (∃ s, e.1 = .string s) ∧ Shows (depth + 1) cs e.2 := by
        intro e he
        refine (Datum.mem_insert_string he).imp_right ?_
        rintro rfl
        exact ⟨⟨_, rfl⟩, hshows.mono hbefore⟩
      split
      · rename_i hc
        exact .ok (hafter.trans (moves_closing depth hc (.inr rfl))) hentries
      · split
        · rename_i hc
          have shorter : (skipSpace after.tail).length < cs.length :=
            Nat.lt_of_le_of_lt (length_skipSpace_le after.tail)
              (Nat.lt_trans (Nat.lt_trans (length_tail_lt_of_skipSpace hc) r.property) hvalue)
          have hcomma := hafter.trans ((moves_head (depth + 1) (c := ',') (by decide) hc).trans
            (.skipSpace (depth + 1) after.tail))
          refine .mono hcomma ((sound_members levels bound entries _ _ h).imp ?_)
          intro es hes e he
          rcases hes e he with he | ⟨hkey, he⟩
          · exact hentries e he
          · exact .inr ⟨hkey, he.mono (hbefore.trans hcomma)⟩
        · exact .malformed _ _
    · exact .malformed _ _
  · exact .malformed _ _
termination_by (cs.length, 1)
decreasing_by
  · exact Prod.Lex.left _ _ hvalue
  · exact Prod.Lex.left _ _ shorter

end

end JsonText

end SampleSchema
