import SampleSchema.Service.Database

/-!
# Tables in memory

A database that is the list of its tables, with a clock that stands still.

* `Database.standard` is this database.
-/

namespace SampleSchema

/-- The time that the clock shows. -/
def standingTime : Moment := ⟨⟨2026, 10, 19, by decide⟩, .midnight, none⟩

namespace Database

/-- The tables with one more row in those for stored runs. -/
def withRow (tables : List StoredTable) (row : StoredRun) : List StoredTable :=
  tables.map fun t => if StoredRun.fits t.layout then { t with rows := t.rows ++ [row] } else t

/-- The rows of the first table for stored runs. -/
def rowsOf? (tables : List StoredTable) : Option (List StoredRun) :=
  (tables.find? fun t => StoredRun.fits t.layout).map StoredTable.rows

/-- The tables themselves as a database. -/
def standard : Database where
  State  := List StoredTable
  blank  := []
  tables := id
  change := TableChange.perform?
  insert tables run := (rowsOf? tables).map fun rows =>
    (nextNumber rows, withRow tables ⟨run, nextNumber rows, standingTime⟩)
  count tables := (rowsOf? tables).map List.length
  find tables number :=
    if number < numberLimit then (rowsOf? tables).map fun rows => rows.find? (·.id = number) else none
  page tables limit offset :=
    if offset < numberLimit then
      (rowsOf? tables).map fun rows => ((newestFirst rows).drop offset).take limit
    else none

end Database

end SampleSchema
