import SampleSchema.Format

/-!
# Paths of sample files

A path is a root, which may be empty, and parts between slashes. A part that is empty or a single
dot leads nowhere and is left out; two dots stay. Exactly two slashes at the start are a root of
their own.

* `SamplePath.format?` is the format that the end of a file's name stands for.
-/

namespace SampleSchema

/-- A path of a file. -/
structure SamplePath where
  root  : String
  parts : List String
  deriving DecidableEq, Repr

namespace SamplePath

/-- The parts of a text between its slashes. -/
def between : List Char → List (List Char)
  | []        => [[]]
  | '/' :: cs => [] :: between cs
  | c :: cs   =>
    match between cs with
    | p :: ps => (c :: p) :: ps
    | []      => [[c]]

/-- The path that a text writes. -/
def ofText (s : String) : SamplePath where
  root :=
    match (s.toList.takeWhile (· = '/')).length with
    | 0 => ""
    | 2 => "//"
    | _ => "/"
  parts := ((between s.toList).map String.ofList).filter fun p => p != "" && p != "."

/-- The text of a path. -/
def text (p : SamplePath) : String :=
  let s := p.root ++ "/".intercalate p.parts
  if s = "" then "." else s

/-- The end of a name from its last dot on, unless the dot is the first or the last character. -/
def suffix? (name : List Char) : Option (List Char) :=
  let ending := name.reverse.takeWhile (· != '.')
  if ending.isEmpty || name.length ≤ ending.length + 1 then none
  else some ('.' :: ending.reverse)

/-- The format that a suffix stands for. -/
def formatOfSuffix? (suffix : String) : Option Format :=
  match suffix with
  | ".json"   => some .json
  | ".jsonl"  => some .jsonLines
  | ".ndjson" => some .jsonLines
  | ".yaml"   => some .yaml
  | ".yml"    => some .yaml
  | ".csv"    => some .table
  | _         => none

/-- The format that the end of a file's name stands for, in capitals or not. -/
def format? (p : SamplePath) : Option Format := do
  let name ← p.parts.getLast?
  let suffix ← suffix? name.toList
  formatOfSuffix? (String.ofList (suffix.map Char.toLower))

end SamplePath

end SampleSchema
