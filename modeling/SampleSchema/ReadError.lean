import SampleSchema.Document
import SampleSchema.Malformed

/-!
# Reasons why a document cannot be read

A document is malformed in one of the ways that have a message, or reading it fails in a way that
nothing turns into a message.
-/

namespace SampleSchema

/-- A reason why a document cannot be read. -/
inductive ReadError where
  | malformed (error : Malformed)
  /-- An integer with more digits than an integer may have, in JSON or as a key of a mapping. -/
  | longInteger
  /-- A value contains itself, or is nested more deeply than there is room for. -/
  | tooDeep
  /-- A failure of the loader of YAML that is no error of YAML. -/
  | loading (failure : LoadFailure)
  deriving DecidableEq, Repr

/-- The error of a loader, which is that of malformed input if the loader says so. -/
def ReadError.ofLoader : LoadError → ReadError
  | .malformed text => .malformed (.yaml text)
  | .other failure  => .loading failure

end SampleSchema
