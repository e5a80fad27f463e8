import SampleSchema.Table

/-!
# Comma-separated tables

Rows of cells between commas. A cell that starts with a double quote goes up to the next single one
and may hold commas and line ends; inside it a doubled quote stands for one. A row ends with its
line, whether that ends in a line feed or in a carriage return and a line feed, but after a carriage
return nothing else may follow on the line. The first row is the header, and rows of an empty line do
not count.

The text is read character by character with an end mark after every line: `State.stepChar` reads a
character, `State.endLine` the mark after a line, and `rowsFrom` all of them.
-/

namespace SampleSchema.Table

/-- The most characters that a cell may have. -/
def maxCellLength : Nat := 131072

/-- Where in a row the reading stands. -/
inductive Phase where
  | rowStart
  | cellStart
  /-- In a cell that does not start with a quote. -/
  | plain
  /-- Between quotes. -/
  | quoted
  /-- After a quote between quotes. -/
  | afterQuote
  /-- After the line end characters of a row. -/
  | rowEnd
  deriving DecidableEq, Repr

/-- What has been read: the characters of the current cell, reversed, with their number, the cells of
the current row, reversed, and the rows before, reversed. -/
structure State where
  phase  : Phase := .rowStart
  cell   : List Char := []
  length : Nat := 0
  row    : List String := []
  rows   : List (List String) := []

namespace State

/-- The state after one more character of the cell. -/
def push (s : State) (c : Char) (next : Phase) : Except TableProblem State :=
  if maxCellLength ≤ s.length then .error (.fieldTooLong maxCellLength)
  else .ok { s with phase := next, cell := c :: s.cell, length := s.length + 1 }

/-- The state after the end of the cell. -/
def endCell (s : State) (next : Phase) : State :=
  { s with phase := next, cell := [], length := 0, row := String.ofList s.cell.reverse :: s.row }

/-- The state after the end of the row. -/
def endRow (s : State) : State :=
  { s with phase := .rowStart, row := [], rows := s.row.reverse :: s.rows }

/-- Whether a character ends a line. -/
def isLineEnd (c : Char) : Bool := c = '\n' || c = '\r'

/-- The state after a character. -/
def stepChar (s : State) (c : Char) : Except TableProblem State :=
  match s.phase with
  | .rowStart =>
    if isLineEnd c then .ok { s with phase := .rowEnd } else startCell
  | .cellStart => if isLineEnd c then .ok (s.endCell .rowEnd) else startCell
  | .plain =>
    if isLineEnd c then .ok (s.endCell .rowEnd)
    else if c = ',' then .ok (s.endCell .cellStart)
    else s.push c .plain
  | .quoted =>
    if c = '"' then .ok { s with phase := .afterQuote } else s.push c .quoted
  | .afterQuote =>
    if c = '"' then s.push c .quoted
    else if c = ',' then .ok (s.endCell .cellStart)
    else if isLineEnd c then .ok (s.endCell .rowEnd)
    else s.push c .plain
  | .rowEnd => if isLineEnd c then .ok s else .error .strayCarriageReturn
where
  /-- The state after the first character of a cell, which does not end a line. -/
  startCell : Except TableProblem State :=
    if c = '"' then .ok { s with phase := .quoted }
    else if c = ',' then .ok (s.endCell .cellStart)
    else s.push c .plain

/-- The state after the end of a line, which ends the row unless it stands between quotes. -/
def endLine (s : State) : State :=
  match s.phase with
  | .quoted => s
  | .rowStart | .rowEnd => s.endRow
  | .cellStart | .plain | .afterQuote => (s.endCell .rowStart).endRow

/-- The state after the end of the text, where a cell without its closing quote ends too. -/
def finish (s : State) : State :=
  match s.phase with
  | .quoted => (s.endCell .rowStart).endRow
  | _ => s

end State

/-- The rows that a text holds up to the first problem, and that problem. The flag tells that the
current line has characters already. -/
def rowsFrom (s : State) (inLine : Bool) : List Char → List (List String) × Option TableProblem
  | [] => (((if inLine then s.endLine else s).finish).rows.reverse, none)
  | c :: cs =>
    match s.stepChar c with
    | .error problem => (s.rows.reverse, some problem)
    | .ok t => if c = '\n' then rowsFrom t.endLine false cs else rowsFrom t true cs

/-- The rows that a text holds up to the first problem, and that problem. -/
def rows (s : String) : List (List String) × Option TableProblem := rowsFrom {} false s.toList

/-- The row of some cells under a header: a missing cell has no content, and all cells beyond the
header share a column without a name. -/
def rowUnder (header cells : List String) : List Cell :=
  let named := (header.zip cells).map fun c => ⟨some c.1, some c.2⟩
  let missing := (header.drop cells.length).map fun column => ⟨some column, none⟩
  let surplus := if header.length < cells.length then [⟨none, none⟩] else []
  rowOf (named ++ missing ++ surplus)

/-- The samples of a comma-separated table. A problem of the text counts only after the rows before
it have been found to fit. -/
def read (hints : List String) (s : String) : Except Malformed (List Sample) :=
  let (all, problem) := rows s
  let body := match all with
    | [] => []
    | header :: below => (below.filter (!·.isEmpty)).map (rowUnder header)
  match records hints body, problem with
  | (_, some e), _ => .error e
  | (_, none), some p => .error (.table p)
  | (samples, none), none => .ok samples

end SampleSchema.Table
