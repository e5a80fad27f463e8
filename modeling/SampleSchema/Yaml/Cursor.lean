import SampleSchema.Text.Digits

/-!
# Reading YAML character by character

A cursor stands in a text between two characters and knows its line and column, both counted from
zero. `Read` is the type of readers that move a cursor or fail, and `many` repeats a reader for as
long as it asks to go on and reads something, so that every repetition ends.

* `Cursor.forward_nil`: at the end of the text a cursor does not move.
-/

namespace SampleSchema.Yaml

/-- A reason why a text has no values. -/
inductive Fault where
  /-- The text breaks the rules of YAML, or a node does not fit its tag. -/
  | malformed
  /-- A scalar is not written in a way that its tag admits. -/
  | badScalar
  /-- A truth value is written with a word that is not known. -/
  | unknownWord (word : String)
  /-- A number is written without a single character of a number. -/
  | emptyNumber
  /-- A timestamp is not written in the form of a timestamp. -/
  | notATimestamp
  /-- A mapping stands where a timestamp has to be written. -/
  | timestampMapping
  /-- A number is too large to be represented. -/
  | outOfRange
  /-- A node contains itself. -/
  | endless
  deriving DecidableEq, Repr

/-- Whether a character ends a line. -/
def isBreak (c : Char) : Bool :=
  c = '\n' || c = '\r' || c = '\u0085' || c = '\u2028' || c = '\u2029'

/-- Whether a place in a text is the end of a line or of the text. -/
def endsLine (c : Option Char) : Bool := c.all isBreak

/-- Whether a space, the end of a line or the end of the text stands at a place. -/
def isSpaceOrEnd (c : Option Char) : Bool := c.all fun c => c = ' ' || isBreak c

/-- Whether white space, the end of a line or the end of the text stands at a place. -/
def isGap (c : Option Char) : Bool := c.all fun c => c = ' ' || c = '\t' || isBreak c

/-- A place in a text: the characters that follow, with their number, and the line and the column,
which no byte order mark counts for. -/
structure Cursor where
  rest   : List Char
  left   : Nat
  line   : Nat
  column : Nat

namespace Cursor

/-- The start of a text. -/
def start (s : String) : Cursor := ⟨s.toList, s.length, 0, 0⟩

/-- The character that stands `n` places further on. -/
def peek (c : Cursor) (n : Nat) : Option Char := c.rest[n]?

/-- The cursor after the next character. -/
def next (c : Cursor) : Cursor :=
  match c.rest with
  | [] => c
  | x :: rest =>
    if isBreak x && !(x = '\r' && rest.head? = some '\n') then ⟨rest, c.left - 1, c.line + 1, 0⟩
    else ⟨rest, c.left - 1, c.line, if x = '\ufeff' then c.column else c.column + 1⟩

/-- The cursor after the next `n` characters. -/
def forward : Nat → Cursor → Cursor
  | 0, c => c
  | n + 1, c => forward n c.next

/-- At the end of the text a cursor does not move. -/
theorem forward_nil : ∀ (n : Nat) (c : Cursor), c.rest = [] → c.forward n = c
  | 0, _, _ => rfl
  | n + 1, c, h => by
      have hn : c.next = c := by unfold next; simp [h]
      rw [forward, hn, forward_nil n c h]

/-- Whether a document separator stands at the cursor, made of three times a character. -/
def atSeparator (mark : Char) (c : Cursor) : Bool :=
  c.rest.take 3 = [mark, mark, mark] && isGap (c.peek 3)

/-- Whether either document separator stands at the cursor. -/
def atAnySeparator (c : Cursor) : Bool := c.atSeparator '-' || c.atSeparator '.'

end Cursor

/-- A reader of something from a text. -/
abbrev Read := StateT Cursor (Except Fault)

/-- The character that stands `n` places further on. -/
def peek (n : Nat) : Read (Option Char) := do return (← get).peek n

/-- Reads `n` characters. -/
def skip (n : Nat) : Read Unit := modify (Cursor.forward n)

/-- Fails because the text breaks a rule. -/
def refuse {α : Type} : Read α := throw .malformed

/-- Goes on only if a condition holds. -/
def need (condition : Bool) : Read Unit := if condition then return () else refuse

/-- Reads the longest run of characters of a class. -/
def takeWhile (p : Char → Bool) : Read (List Char) := do
  let run := (← get).rest.takeWhile p
  skip run.length
  return run

/-- Repeats a reader for as long as it asks to go on and the cursor moves. -/
def many {α : Type} (step : α → Read (α × Bool)) (a : α) : Read α := fun c => do
  let ((b, more), d) ← step a c
  if more then
    if d.left < c.left then many step b d else return (b, d)
  else return (b, d)
termination_by c => c.left

/-- Reads a line break, if there is one, as the text that it stands for: a line feed, but for the
line and the paragraph separator themselves. -/
def lineBreak : Read String := do
  match ← peek 0 with
  | some c =>
    if c = '\u2028' || c = '\u2029' then
      skip 1
      return c.toString
    else if isBreak c then
      skip (if c = '\r' && (← peek 1) = some '\n' then 2 else 1)
      return "\n"
    else return ""
  | none => return ""

/-- Reads spaces. -/
def skipSpaces : Read Unit := do let _ ← takeWhile (· = ' ')

/-- Reads the rest of a line, where only a comment may stand. -/
def commentLine : Read Unit := do
  skipSpaces
  if (← peek 0) = some '#' then let _ ← takeWhile (!isBreak ·)
  need (endsLine (← peek 0))
  let _ ← lineBreak

/-- Whether a character may stand in the name of an anchor, a directive or a tag handle. -/
def isNameChar (c : Char) : Bool := c.isAlphanum || c = '-' || c = '_'

end SampleSchema.Yaml
