import SampleSchema.Format
import SampleSchema.Inference.Run

/-!
# Submissions

What is sent to have a schema inferred: samples, either decoded already or as a text in some format,
and what to do with them.

* `Submission.report` is the report on a submission.
-/

namespace SampleSchema

/-- Where samples come from. -/
inductive Source where
  | content (text : String)
  | samples (values : List Datum)

/-- What is sent to have a schema inferred. -/
structure Submission where
  format   : Format
  source   : Source
  /-- The columns of a table that hold numbers. -/
  hints    : List String
  rootName : Option String
  /-- Whether the run is to be stored. -/
  persist  : Bool

/-- The most characters that a submitted root name may have. -/
def maxRootName : Nat := 255

namespace Submission

/-- The samples of a submission. -/
def sampleList (p : Reading) (s : Submission) : Except ReadError (List Sample) :=
  match s.source with
  | .content text => s.format.read p s.hints text
  | .samples ds   => ds.mapM (Datum.decodeWithin p.valueLevels)

/-- A reason why a submission has no report. -/
inductive Failure where
  | read (error : ReadError)
  | run (error : RunError)
  deriving DecidableEq, Repr

/-- The report on a submission. -/
def report (p : Reading) (settings : Settings) (s : Submission) : Except Failure Report := do
  let samples ← (s.sampleList p).mapError .read
  (settings.report s.rootName none samples).mapError .run

end Submission

end SampleSchema
