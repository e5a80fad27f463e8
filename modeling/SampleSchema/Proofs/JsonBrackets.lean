import Mathlib.Data.List.TakeWhile
import SampleSchema.Json.Reader

/-!
# Brackets in a JSON text

How many brackets are open at a place in a text can be told without reading it: a bracket counts
unless it stands inside of a text between quotes, where a backslash takes the next character with it
(`Brackets.step`).  A text is deep if more brackets than allowed are open somewhere (`Deep`).

A reader takes characters from the front of a text and so moves from one state of the brackets to
another (`Moves`); every character that it takes is white space of JSON or no control character.
-/

namespace SampleSchema.JsonText

/-- Whether a character may stand in a JSON text. -/
def IsPlain (c : Char) : Prop := isSpace c = true ∨ 0x20 ≤ c.toNat

instance (c : Char) : Decidable (IsPlain c) :=
  inferInstanceAs (Decidable (isSpace c = true ∨ 0x20 ≤ c.toNat))

/-! ### States -/

/-- Where a place stands with regard to the quotes around it. -/
inductive Quotes where
  | outside
  | inside
  /-- Inside of quotes, after a backslash. -/
  | escaping
  deriving DecidableEq

/-- How many brackets are open at a place, and where it stands with regard to quotes. -/
structure Brackets where
  depth  : Nat
  quotes : Quotes

/-- A place outside of quotes. -/
def outside (depth : Nat) : Brackets := ⟨depth, .outside⟩

/-- A place between quotes. -/
def inside (depth : Nat) : Brackets := ⟨depth, .inside⟩

/-- Whether a character opens an array or an object. -/
def opens (c : Char) : Bool := c = '[' || c = '\x7b'

/-- Whether a character closes an array or an object. -/
def closes (c : Char) : Bool := c = ']' || c = '\x7d'

namespace Brackets

/-- The state after one more character. -/
def step (b : Brackets) (c : Char) : Brackets :=
  match b.quotes with
  | .escaping => inside b.depth
  | .inside   =>
    if c = '\\' then ⟨b.depth, .escaping⟩ else if c = '"' then outside b.depth else b
  | .outside  =>
    if c = '"' then inside b.depth
    else if opens c then outside (b.depth + 1)
    else if closes c then outside (b.depth - 1)
    else b

/-- The state after some characters. -/
def after (b : Brackets) (cs : List Char) : Brackets := cs.foldl step b

/-- Brackets are counted character by character. -/
theorem after_append (b : Brackets) (cs ds : List Char) :
    b.after (cs ++ ds) = (b.after cs).after ds := List.foldl_append

end Brackets

/-- Whether so many brackets are open somewhere in a text that starts in a state. -/
def Reaches (b : Brackets) (cs : List Char) (depth : Nat) : Prop :=
  ∃ used, used <+: cs ∧ depth ≤ (b.after used).depth

/-- Whether more than `limit` brackets are open somewhere in a text. -/
def Deep (limit : Nat) (cs : List Char) : Prop := Reaches (outside 0) cs (limit + 1)

/-- A depth is reached at the start. -/
theorem Reaches.start {b : Brackets} {depth : Nat} (h : depth ≤ b.depth) (cs : List Char) :
    Reaches b cs depth := ⟨[], List.nil_prefix, h⟩

/-- Who reaches a depth reaches all smaller ones. -/
theorem Reaches.of_le {b : Brackets} {cs : List Char} {m n : Nat} (h : Reaches b cs n)
    (hle : m ≤ n) : Reaches b cs m := by
  obtain ⟨used, hp, hn⟩ := h
  exact ⟨used, hp, Nat.le_trans hle hn⟩

/-! ### Moves -/

/-- Whether the second text is the first one after some characters that may stand in a JSON text and
lead from one state to another. -/
def Moves (a b : Brackets) (cs rest : List Char) : Prop :=
  ∃ used, cs = used ++ rest ∧ (∀ c ∈ used, IsPlain c) ∧ a.after used = b

/-- Whether a character means nothing outside of quotes. -/
def IsQuiet (c : Char) : Prop := c ≠ '"' ∧ opens c = false ∧ closes c = false

instance (c : Char) : Decidable (IsQuiet c) :=
  inferInstanceAs (Decidable (c ≠ '"' ∧ opens c = false ∧ closes c = false))

/-- A quiet character changes nothing outside of strings. -/
theorem step_of_isQuiet {c : Char} (h : IsQuiet c) (depth : Nat) :
    (outside depth).step c = outside depth := by
  obtain ⟨hquote, hopens, hcloses⟩ := h
  simp [Brackets.step, outside, hquote, hopens, hcloses]

namespace Moves

variable {a b d : Brackets} {as bs cs : List Char}

theorem refl (a : Brackets) (cs : List Char) : Moves a a cs cs := ⟨[], rfl, by simp, rfl⟩

theorem trans (h : Moves a b as bs) (h' : Moves b d bs cs) : Moves a d as cs := by
  obtain ⟨us, rfl, hus, hab⟩ := h
  obtain ⟨vs, rfl, hvs, hbd⟩ := h'
  refine ⟨us ++ vs, (List.append_assoc us vs cs).symm, fun c hc => ?_, ?_⟩
  · exact (List.mem_append.mp hc).elim (hus c) (hvs c)
  · rw [Brackets.after_append, hab, hbd]

theorem cons {c : Char} (hc : IsPlain c) (h : Moves (a.step c) b as bs) : Moves a b (c :: as) bs :=
  trans ⟨[c], rfl, by simpa using hc, rfl⟩ h

theorem head {c : Char} (hc : IsPlain c) (h : cs.head? = some c) : Moves a (a.step c) cs cs.tail := by
  cases cs with
  | nil => cases h
  | cons d ds =>
      cases h
      exact cons hc (refl _ ds)

/-- Quiet characters that may stand in a JSON text. -/
theorem quiet {used : List Char} (h : ∀ c ∈ used, IsPlain c ∧ IsQuiet c) (depth : Nat)
    (rest : List Char) : Moves (outside depth) (outside depth) (used ++ rest) rest := by
  induction used with
  | nil => exact refl _ rest
  | cons c used ih =>
      obtain ⟨hc, hused⟩ := List.forall_mem_cons.mp h
      refine cons hc.1 ?_
      rw [step_of_isQuiet hc.2]
      exact ih hused

/-- The longest run of characters of a class of quiet characters. -/
theorem run {p : Char → Bool} (hp : ∀ c, p c = true → IsPlain c ∧ IsQuiet c) (depth : Nat)
    (cs : List Char) :
    Moves (outside depth) (outside depth) cs (cs.drop (cs.takeWhile p).length) := by
  have hrun : ∀ c ∈ cs.takeWhile p, IsPlain c ∧ IsQuiet c :=
    fun c hc => hp c (List.mem_takeWhile_imp hc)
  obtain ⟨rest, hrest⟩ := List.takeWhile_prefix p (l := cs)
  generalize cs.takeWhile p = used at hrun hrest
  subst hrest
  rw [List.drop_left]
  exact quiet hrun depth rest

/-- Blanks are quiet. -/
theorem isQuiet_of_isSpace {c : Char} (h : isSpace c = true) : IsQuiet c := by
  simp only [isSpace, Bool.or_eq_true, decide_eq_true_eq] at h
  rcases h with ((rfl | rfl) | rfl) | rfl <;> decide

/-- Skipping blanks moves to the same depth. -/
theorem skipSpace (depth : Nat) : ∀ cs : List Char,
    Moves (outside depth) (outside depth) cs (skipSpace cs)
  | []      => refl _ []
  | c :: cs => by
      rw [JsonText.skipSpace]
      split
      · rename_i hc
        refine cons (.inl hc) ?_
        rw [step_of_isQuiet (isQuiet_of_isSpace hc)]
        exact skipSpace depth cs
      · exact refl _ _

theorem isSuffix (h : Moves a b as bs) : bs <:+ as := by
  obtain ⟨us, rfl, -, -⟩ := h
  exact List.suffix_append us bs

/-- As many brackets as are open after a move are open before it somewhere. -/
theorem reaches (h : Moves a b as bs) {depth : Nat} (hb : Reaches b bs depth) :
    Reaches a as depth := by
  obtain ⟨us, rfl, -, rfl⟩ := h
  obtain ⟨used, hp, hdepth⟩ := hb
  refine ⟨us ++ used, (List.prefix_append_right_inj us).mpr hp, ?_⟩
  rwa [Brackets.after_append]

end Moves

end SampleSchema.JsonText
