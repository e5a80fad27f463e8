/-!
# Lines and positions

A text is cut into lines at the line boundaries of Unicode, where a carriage return followed by a
line feed is one boundary. A boundary at the very end starts no further line. Positions count lines
and columns from one, and for them only a line feed ends a line.

* `linesFrom_of_unbroken`: a run without boundaries joins the current line.
* `withLineFeeds_of_notMem`: a text without carriage returns has line feeds alone already.
-/

namespace SampleSchema.Text

/-- Whether a character ends a line. -/
def isLineBoundary (c : Char) : Bool :=
  c = '\n' || c = '\r' || c = '\x0b' || c = '\x0c' || c = '\x1c' || c = '\x1d' || c = '\x1e' ||
    c = '\u0085' || c = '\u2028' || c = '\u2029'

/-- The lines of a text whose current line, reversed, is `line`. -/
def linesFrom (line : List Char) : List Char → List (List Char)
  | [] => if line.isEmpty then [] else [line.reverse]
  | '\r' :: '\n' :: cs => line.reverse :: linesFrom [] cs
  | c :: cs =>
    if isLineBoundary c then line.reverse :: linesFrom [] cs else linesFrom (c :: line) cs

/-- The lines of a text, without their boundaries. -/
def lines (s : String) : List String := (linesFrom [] s.toList).map String.ofList

/-- A run of characters without boundaries joins the current line. -/
theorem linesFrom_of_unbroken : ∀ (cs line : List Char), (∀ c ∈ cs, isLineBoundary c = false) →
    linesFrom line cs = if line.isEmpty && cs.isEmpty then [] else [line.reverse ++ cs]
  | [], line, _ => by cases line <;> simp [linesFrom]
  | c :: cs, line, h => by
      have hc : isLineBoundary c = false := h c (by simp)
      have ih := linesFrom_of_unbroken cs (c :: line) fun d hd => h d (by simp [hd])
      have hr : c ≠ '\r' := by rintro rfl; exact absurd hc (by decide)
      rw [linesFrom, hc]
      · simpa using ih
      · rintro ds rfl; exact absurd rfl hr

/-- Characters with a line feed in place of every carriage return and of every pair of the two. -/
def withLineFeeds : List Char → List Char
  | []                  => []
  | '\r' :: '\n' :: cs => '\n' :: withLineFeeds cs
  | c :: cs             => (if c = '\r' then '\n' else c) :: withLineFeeds cs

/-- Characters without carriage returns stay as they are. -/
theorem withLineFeeds_of_notMem : ∀ {cs : List Char}, '\r' ∉ cs → withLineFeeds cs = cs
  | [], _ => rfl
  | c :: cs, h => by
      have hc : c ≠ '\r' := fun e => h (e ▸ List.mem_cons_self)
      rw [withLineFeeds, withLineFeeds_of_notMem (fun m => h (by simp [m]))]
      · simp [hc]
      · rintro ds rfl; exact absurd rfl hc

/-- A line and a column, both counted from one. -/
structure Position where
  line   : Nat
  column : Nat
  deriving DecidableEq, Repr

/-- The position reached after reading some characters. -/
def Position.after (read : List Char) : Position where
  line   := read.count '\n' + 1
  column := (read.reverse.takeWhile (· != '\n')).length + 1

end SampleSchema.Text
