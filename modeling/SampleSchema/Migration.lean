import SampleSchema.Service.Run

/-!
# Migrations

A database changes from one version to another by changes to its tables, each of which is a statement.
The database refuses a change when a name that it makes is taken, or when a name that it needs is
missing.

* `TableChange.perform?` is what a change does, and `TableChange.text` the statement for it.
* `runsMigration` leads to the latest version and back, and `StoredRun.creation` makes the table for
  stored runs without a migration.
-/

namespace SampleSchema

/-- A table of a database with its rows, in the order in which they were stored. -/
structure StoredTable where
  layout : TableLayout
  rows   : List StoredRun := []

/-- A change to the tables of a database. -/
inductive TableChange where
  | createTable (table : TableLayout)
  | createIndex (table : String) (index : TableIndex)
  | dropIndex (index : String)
  | dropTable (table : String)
  deriving DecidableEq, Repr

namespace TableChange

/-- The tables after a change, if the database takes it. A new table is empty. -/
def perform? (tables : List StoredTable) : TableChange → Option (List StoredTable)
  | .createTable t =>
    if tables.any (·.layout.name = t.name) then none else some (tables ++ [⟨t, []⟩])
  | .createIndex table i =>
    let isMeant (t : StoredTable) : Bool := t.layout.name = table && i.columns.all t.layout.hasColumn
    if tables.any isMeant && !tables.any (·.layout.hasIndex i.name) then
      some (tables.map fun t => if isMeant t then { t with layout := t.layout.withIndex i } else t)
    else none
  | .dropIndex name =>
    if tables.any (·.layout.hasIndex name) then
      some (tables.map fun t => { t with layout := t.layout.withoutIndex name })
    else none
  | .dropTable name =>
    if tables.any (·.layout.name = name) then some (tables.filter (·.layout.name ≠ name)) else none

/-- The statement for a change. -/
def text : TableChange → String
  | .createTable t       => t.create
  | .createIndex table i => TableLayout.createIndex table i
  | .dropIndex name      => TableLayout.statement ("DROP INDEX " ++ name)
  | .dropTable name      => TableLayout.statement ("DROP TABLE " ++ name)

end TableChange

/-- The changes that make the table for stored runs, with its indexes. -/
def StoredRun.creation : List TableChange :=
  .createTable { layout with indexes := [] } :: layout.indexes.map (.createIndex layout.name)

/-- The directions of a move between versions. -/
inductive Direction where
  | upgrade
  | downgrade
  deriving DecidableEq, Repr

/-- The changes between two versions, upwards and back. -/
structure Migration where
  upgrade   : List TableChange
  downgrade : List TableChange

namespace Migration

/-- The changes in a direction. -/
def changes (m : Migration) : Direction → List TableChange
  | .upgrade   => m.upgrade
  | .downgrade => m.downgrade

/-- The statements for the changes in a direction. -/
def text (m : Migration) (direction : Direction) : String :=
  String.join ((m.changes direction).map TableChange.text)

end Migration

/-- The table of runs as the latest version makes it, before it has an index. -/
def runsTable : TableLayout where
  name       := "inference_runs"
  columns    :=
    [⟨"id", .integer, false, none⟩, ⟨"source_format", .text 32, false, none⟩,
     ⟨"root_type_name", .text 255, false, none⟩, ⟨"sample_count", .integer, false, none⟩,
     ⟨"definition_count", .integer, false, none⟩, ⟨"conflict_count", .integer, false, none⟩,
     ⟨"root_json", .json, false, none⟩, ⟨"definitions_json", .json, false, none⟩,
     ⟨"conflicts_json", .json, false, none⟩,
     ⟨"created_at", .moment, false, some "CURRENT_TIMESTAMP"⟩]
  primaryKey := ["id"]

/-- The migration to the latest version. -/
def runsMigration : Migration where
  upgrade   :=
    [.createTable runsTable,
     .createIndex "inference_runs" ⟨"ix_inference_runs_source_format", ["source_format"], false⟩]
  downgrade := [.dropIndex "ix_inference_runs_source_format", .dropTable "inference_runs"]

end SampleSchema
