import SampleSchema.Calendar
import SampleSchema.Format
import SampleSchema.Report
import SampleSchema.TableLayout

/-!
# Stored runs

A run is stored as a row: the format of its samples, its report taken apart, a number that no other run
has, and the time.

* `StoredRun.layout` is the table that runs are stored in, and `StoredRun.fits` tells whether a table
  can take them.
* `StoredRun.toJson` shows a row.
-/

namespace SampleSchema

/-- What is stored of a run: the format of its samples and its report. -/
structure Run where
  format          : String
  rootTypeName    : String
  sampleCount     : Int
  definitionCount : Nat
  conflictCount   : Nat
  root            : Json
  definitions     : List Json
  conflicts       : List Json
  deriving Repr

/-- What is stored of a report on samples in a format. -/
def Run.of (format : Format) (r : Report) : Run where
  format          := format.name
  rootTypeName    := r.rootTypeName
  sampleCount     := r.sampleCount
  definitionCount := r.definitions.length
  conflictCount   := r.conflicts.length
  root            := r.root.toJson
  definitions     := r.definitions.map DefinitionReport.toJson
  conflicts       := r.conflicts.map Conflict.toJson

/-- A stored run, with its number and the time when it was stored. -/
structure StoredRun extends Run where
  id        : Nat
  createdAt : Moment

namespace StoredRun

/-- The most characters of the name of a format in a database. -/
def maxFormat : Nat := 32

/-- The most characters of the name of a root type in a database. -/
def maxRootName : Nat := 255

/-- The columns of a stored run. -/
def columns : List Column :=
  [⟨"id", .integer, false, none⟩, ⟨"created_at", .moment, false, some "CURRENT_TIMESTAMP"⟩,
   ⟨"source_format", .text maxFormat, false, none⟩,
   ⟨"root_type_name", .text maxRootName, false, none⟩, ⟨"sample_count", .integer, false, none⟩,
   ⟨"definition_count", .integer, false, none⟩, ⟨"conflict_count", .integer, false, none⟩,
   ⟨"root_json", .json, false, none⟩, ⟨"definitions_json", .json, false, none⟩,
   ⟨"conflicts_json", .json, false, none⟩]

/-- The columns by which a stored run is known. -/
def key : List String := ["id"]

/-- The columns by which stored runs are looked for. -/
def searched : List String := ["source_format"]

/-- The table for stored runs, with an index for each column by which they are looked for. -/
def layout : TableLayout where
  name       := "inference_runs"
  columns    := columns
  primaryKey := key
  indexes    := searched.map fun c => ⟨"ix_inference_runs_" ++ c, [c], false⟩

/-- Whether runs can be stored in a table. The order of its columns and its indexes do not matter. -/
def fits (t : TableLayout) : Bool :=
  t.name = layout.name && layout.columns.all t.columns.contains &&
    t.columns.all layout.columns.contains && t.primaryKey = layout.primaryKey

/-- The JSON value of a stored run. -/
def toJson (r : StoredRun) : Json :=
  .object [("id", .int r.id), ("created_at", .string r.createdAt.text),
    ("source_format", .string r.format), ("root_type_name", .string r.rootTypeName),
    ("sample_count", .int r.sampleCount), ("definition_count", .int r.definitionCount),
    ("conflict_count", .int r.conflictCount), ("root_json", r.root),
    ("definitions_json", .array r.definitions), ("conflicts_json", .array r.conflicts)]

end StoredRun

end SampleSchema
