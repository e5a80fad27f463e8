import SampleSchema.Migration

/-!
# The database

Stored runs are kept in a database, which has tables of its own accord only and is changed by
statements, by adding rows and by nothing else. Each of its operations may fail.

* `Database` is a database with the operations that the service and the migrations use, and
  `Database.Lawful` what they rely on.
-/

namespace SampleSchema

/-- A database. An operation without an outcome fails and changes nothing. -/
structure Database where
  /-- What the database can hold. -/
  State  : Type
  /-- Nothing. -/
  blank  : State
  tables : State → List StoredTable
  change : State → TableChange → Option State
  /-- Stores a run; the outcome has the number that it gets. -/
  insert : State → Run → Option (Nat × State)
  /-- How many runs are stored. -/
  count  : State → Option Nat
  /-- The run of a number, if there is one. -/
  find   : State → Nat → Option (Option StoredRun)
  /-- At most `limit` runs, those with the greatest numbers first, after `offset` others. -/
  page   : State → (limit offset : Nat) → Option (List StoredRun)

namespace Database

/-- The numbers that a database can be asked for are smaller than this. -/
def numberLimit : Nat := 9223372036854775808

/-- The number that the next row gets: one more than the greatest so far. -/
def nextNumber (rows : List StoredRun) : Nat := (rows.map (·.id)).foldr max 0 + 1

/-- Rows by their numbers, the greatest first. -/
def newestFirst (rows : List StoredRun) : List StoredRun :=
  rows.mergeSort fun a b => decide (b.id ≤ a.id)

variable (d : Database)

/-- The rows of the table for stored runs, if there is one. -/
def rows? (s : d.State) : Option (List StoredRun) :=
  ((d.tables s).find? fun t => StoredRun.fits t.layout).map StoredTable.rows

/-- The database after changes, if it takes them all. -/
def perform? (s : d.State) (changes : List TableChange) : Option d.State := changes.foldlM d.change s

/-- A database that is made for stored runs, without a migration. -/
def created : d.State := (d.perform? d.blank StoredRun.creation).getD d.blank

/-- What the service and the migrations rely on in a database. -/
structure Lawful : Prop where
  tables_blank  : d.tables d.blank = []
  /-- A statement changes the tables as it says, or it is refused. -/
  tables_change : ∀ (s : d.State) (c : TableChange),
    (d.change s c).map d.tables = c.perform? (d.tables s)
  /-- A new row has the next number and is the last one of its table. -/
  insert_row    : ∀ {s : d.State} {rows : List StoredRun}, d.rows? s = some rows → ∀ run : Run,
    ∃ t createdAt, d.insert s run = some (nextNumber rows, t) ∧
      d.tables t = (d.tables s).map fun table =>
        if StoredRun.fits table.layout then
          { table with rows := table.rows ++ [⟨run, nextNumber rows, createdAt⟩] }
        else table
  /-- Without its table it is not stored. -/
  insert_none   : ∀ {s : d.State}, d.rows? s = none → ∀ run : Run, d.insert s run = none
  count_rows    : ∀ s : d.State, d.count s = (d.rows? s).map List.length
  /-- A number below the limit is looked for among the rows, a greater one cannot be asked for. -/
  find_row      : ∀ (s : d.State) {number : Nat}, number < numberLimit →
    d.find s number = (d.rows? s).map fun rows => rows.find? (·.id = number)
  find_none     : ∀ (s : d.State) {number : Nat}, numberLimit ≤ number → d.find s number = none
  page_rows     : ∀ (s : d.State) (limit : Nat) {offset : Nat}, limit < numberLimit →
    offset < numberLimit → d.page s limit offset =
      (d.rows? s).map fun rows => ((newestFirst rows).drop offset).take limit
  page_none     : ∀ (s : d.State) (limit : Nat) {offset : Nat}, numberLimit ≤ offset →
    d.page s limit offset = none

end Database

end SampleSchema
