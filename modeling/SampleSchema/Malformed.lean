import SampleSchema.Text.Lines
import SampleSchema.Text.Quoted

/-!
# Malformed input

The ways in which input fails to be a list of samples, each with the values its message shows.
-/

namespace SampleSchema

/-- What is wrong with a JSON text at some position. -/
inductive JsonProblem where
  | byteOrderMark
  | expectedValue
  | expectedName
  | expectedColon
  | expectedComma
  | extraData
  | unterminatedString
  | controlCharacter
  | invalidEscape
  | invalidUnicodeEscape
  deriving DecidableEq, Repr

/-- The words for a problem in a JSON text. -/
def JsonProblem.message : JsonProblem → String
  | .byteOrderMark        => "Unexpected UTF-8 BOM (decode using utf-8-sig)"
  | .expectedValue        => "Expecting value"
  | .expectedName         => "Expecting property name enclosed in double quotes"
  | .expectedColon        => "Expecting ':' delimiter"
  | .expectedComma        => "Expecting ',' delimiter"
  | .extraData            => "Extra data"
  | .unterminatedString   => "Unterminated string starting at"
  | .controlCharacter     => "Invalid control character at"
  | .invalidEscape        => "Invalid \\escape"
  | .invalidUnicodeEscape => "Invalid \\uXXXX escape"

/-- What is wrong with a table in comma-separated form. -/
inductive TableProblem where
  | strayCarriageReturn
  | fieldTooLong (limit : Nat)
  deriving DecidableEq, Repr

/-- The words for a problem in a table. -/
def TableProblem.message : TableProblem → String
  | .strayCarriageReturn =>
    "new-line character seen in unquoted field - " ++
      "do you need to open the file in universal-newline mode?"
  | .fieldTooLong limit => "field larger than field limit (" ++ Nat.repr limit ++ ")"

/-- The part of the input that a JSON text comes from. -/
inductive Place where
  | document
  | line (number : Nat)
  deriving DecidableEq, Repr

/-- The words for a place. -/
def Place.label : Place → String
  | .document => "document"
  | .line n   => "line " ++ Nat.repr n

/-- A way in which input is malformed. -/
inductive Malformed where
  /-- A number that is infinite or not a number, as it is written. -/
  | nonFinite (text : String)
  /-- A value of the named type where a number is required. -/
  | notNumber (typeName : String)
  | duplicateField (name : String)
  /-- A value of a type that no sample has. -/
  | unsupportedType (typeName : String)
  | surplusCells (record : Nat)
  | notNumeric (record : Nat) (column cell : String)
  | json (place : Place) (problem : JsonProblem) (position : Text.Position)
  /-- A text that the loader of YAML refuses, with the words for it. -/
  | yaml (text : String)
  | table (problem : TableProblem)
  | unknownFormat (name : String)
  | undetectedFormat (path : String)
  deriving DecidableEq, Repr

/-- The message for malformed input. -/
def Malformed.message : Malformed → String
  | .nonFinite text =>
    "Non-finite number is not representable: " ++ text
  | .notNumber typeName =>
    "RawNumber requires an int or float, got " ++ typeName
  | .duplicateField name =>
    "Duplicate object field name: " ++ Text.quoted name
  | .unsupportedType typeName =>
    "Unsupported sample value type: " ++ typeName
  | .surplusCells record =>
    "Record " ++ Nat.repr record ++ " has more cells than header columns"
  | .notNumeric record column cell =>
    "Record " ++ Nat.repr record ++ " column " ++ Text.quoted column ++ " is not numeric: " ++
      Text.quoted cell
  | .json place problem position =>
    "Invalid JSON in " ++ place.label ++ ": " ++ problem.message ++ " (line " ++
      Nat.repr position.line ++ ", column " ++ Nat.repr position.column ++ ")"
  | .yaml text =>
    "Invalid YAML: " ++ text
  | .table problem =>
    "CSV parse error: " ++ problem.message
  | .unknownFormat name =>
    "Unsupported sample format: " ++ Text.quoted name
  | .undetectedFormat path =>
    "Cannot detect sample format of " ++ path ++ "; pass --format"

end SampleSchema
