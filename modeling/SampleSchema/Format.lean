import SampleSchema.Datum.Sample
import SampleSchema.Json.Reader
import SampleSchema.Table.Separated

/-!
# Formats

The formats that samples are written in: a JSON document is one sample, of JSON Lines every line that
is not blank, of YAML every document that is not null, and of a comma-separated table every record.

What reads YAML, and for how deep a nesting there is room, is left open (`Reading`).

* `Format.read` gives the samples that a text writes.
-/

namespace SampleSchema

/-- What the reading of texts depends on. -/
structure Reading where
  /-- The most levels of arrays and objects in a text of JSON. -/
  textLevels  : Nat
  /-- The most levels of collections in a value that a sample is made of. -/
  valueLevels : Nat
  /-- What reads YAML. -/
  loadYaml    : Loader

/-- A format of samples. -/
inductive Format where
  | json
  | jsonLines
  | yaml
  | table
  deriving DecidableEq, Repr

namespace Format

/-- The name of a format. -/
def name : Format → String
  | .json      => "json"
  | .jsonLines => "jsonl"
  | .yaml      => "yaml"
  | .table     => "csv"

/-- All formats. -/
def all : List Format := [.json, .jsonLines, .yaml, .table]

/-- Every format is among all formats. -/
theorem mem_all : ∀ f : Format, f ∈ all
  | .json | .jsonLines | .yaml | .table => by simp [all]

/-- The format of a name. -/
def ofName? (name : String) : Option Format := all.find? (·.name = name)

/-- The format of the name of a format. -/
theorem ofName?_name : ∀ f : Format, ofName? f.name = some f
  | .json | .jsonLines | .yaml | .table => by simp [ofName?, all, name]

section
variable (p : Reading)

/-- The sample that a JSON text writes. -/
def readJson (place : Place) (s : String) : Except ReadError Sample :=
  match JsonText.read p.textLevels s with
  | .ok d => d.decodeWithin p.valueLevels
  | .error .longInteger => .error .longInteger
  | .error .tooDeep => .error .tooDeep
  | .error (.malformed problem rest) =>
    .error (.malformed (.json place problem (JsonText.position s rest)))

/-- The samples that lines of JSON write, where the first has the given number. A blank line has a
number but no sample. -/
def readLines (number : Nat) : List String → Except ReadError (List Sample)
  | [] => .ok []
  | line :: lines => do
    if Text.isBlankText line then readLines (number + 1) lines
    else
      let s ← readJson p (.line number) line
      return s :: (← readLines (number + 1) lines)

/-- The samples that a text of YAML writes. Every document is loaded before the first sample is made. -/
def readYaml (s : String) : Except ReadError (List Sample) := do
  let documents ← (p.loadYaml s).mapError .ofLoader
  (documents.filter (!·.isNull)).mapM (·.sample p.valueLevels)

end

/-- The samples that a text writes in a format. The hints name the columns of a table that hold
numbers. -/
def read (f : Format) (p : Reading) (hints : List String) (s : String) :
    Except ReadError (List Sample) :=
  match f with
  | .json      => do return [← readJson p .document s]
  | .jsonLines => readLines p 1 (Text.lines s)
  | .yaml      => readYaml p s
  | .table     => (Table.read hints s).mapError .malformed

/-- The samples that a text writes in the format of a name. -/
def readNamed (p : Reading) (name : String) (hints : List String) (s : String) :
    Except ReadError (List Sample) :=
  match ofName? name with
  | some f => f.read p hints s
  | none => .error (.malformed (.unknownFormat name))

end Format

end SampleSchema
