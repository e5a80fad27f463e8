import SampleSchema.Number.Literal
import SampleSchema.Sample

/-!
# Tables

A row of a table has one cell for each of its columns. A column whose name is hinted holds numbers;
the cells of any other column hold text. Each row becomes one object sample, and the first row that
does not fit ends the reading.

* `length_recordsFrom`: there is one sample for each row unless reading fails.
* `exists_row_of_recordsFrom`: each sample is that of a row.
-/

namespace SampleSchema.Table

/-- A cell: the column where it stands, which is missing for cells beyond the last column, and what
it holds, which is missing for a row that ends before the column. -/
structure Cell where
  column  : Option String
  content : Option String
  deriving DecidableEq, Repr

/-- The cells of a row after giving a column its cell: a column keeps its place. -/
def setCell (column : Option String) (content : Option String) : List Cell → List Cell
  | [] => [⟨column, content⟩]
  | cell :: cells =>
    if cell.column = column then ⟨column, content⟩ :: cells
    else cell :: setCell column content cells

/-- The row of some cells, where the last cell of a column counts. -/
def rowOf (cells : List Cell) : List Cell :=
  cells.foldl (fun row cell => setCell cell.column cell.content row) []

/-- The sample of what a cell of a column of numbers holds. -/
def numberCell (record : Nat) (column content : String) : Except Malformed Sample :=
  if Text.isBlankText content then .ok .null
  else
    match Literal.integer? content with
    | some n => .ok (.int n)
    | none =>
      match Literal.double? content with
      | some x => Sample.ofDouble x
      | none => .error (.notNumeric record column content)

/-- The sample of what a cell holds. -/
def cellSample (hints : List String) (record : Nat) (column : String) :
    Option String → Except Malformed Sample
  | none => .ok .null
  | some content =>
    if column ∈ hints then numberCell record column content else .ok (.string content)

/-- The fields of the cells of a row. -/
def rowFields (hints : List String) (record : Nat) :
    List Cell → Except Malformed (List (String × Sample))
  | [] => .ok []
  | ⟨none, _⟩ :: _ => .error (.surplusCells record)
  | ⟨some column, content⟩ :: cells => do
    let s ← cellSample hints record column content
    return (column, s) :: (← rowFields hints record cells)

/-- The sample of a row, which is the given record of its table. -/
def rowSample (hints : List String) (record : Nat) (row : List Cell) : Except Malformed Sample := do
  Sample.ofFields (← rowFields hints record row)

/-- The samples of the rows up to the first one that does not fit, and what is wrong with that. -/
def recordsFrom (hints : List String) (record : Nat) :
    List (List Cell) → List Sample × Option Malformed
  | [] => ([], none)
  | row :: rows =>
    match rowSample hints record row with
    | .error e => ([], some e)
    | .ok s =>
      let (samples, failure) := recordsFrom hints (record + 1) rows
      (s :: samples, failure)

/-- The samples of the rows of a table, whose records are counted from one. -/
def records (hints : List String) (rows : List (List Cell)) : List Sample × Option Malformed :=
  recordsFrom hints 1 rows

/-- There is one sample for each row unless reading fails. -/
theorem length_recordsFrom (hints : List String) : ∀ (rows : List (List Cell)) (record : Nat),
    (recordsFrom hints record rows).2 = none →
      (recordsFrom hints record rows).1.length = rows.length
  | [], _, _ => rfl
  | row :: rows, record, h => by
      unfold recordsFrom at h ⊢
      split
      · simp_all
      · simp_all [length_recordsFrom hints rows (record + 1)]

/-- Each sample is that of a row. -/
theorem exists_row_of_recordsFrom {hints : List String} : ∀ {rows : List (List Cell)}
    {record : Nat}, ∀ v ∈ (recordsFrom hints record rows).1,
      ∃ row ∈ rows, ∃ n, rowSample hints n row = .ok v
  | [], _, v, hv => by cases hv
  | row :: rows, record, v, hv => by
      rw [recordsFrom] at hv
      split at hv
      · cases hv
      · rename_i w hw
        rcases List.mem_cons.mp hv with rfl | hv
        · exact ⟨row, List.mem_cons_self, record, hw⟩
        · obtain ⟨row', hrow', h⟩ := exists_row_of_recordsFrom v hv
          exact ⟨row', List.mem_cons_of_mem row hrow', h⟩

end SampleSchema.Table
