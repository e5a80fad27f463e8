import SampleSchema.CommandLine.Arguments
import SampleSchema.Packages

/-!
# The command line

The report on the samples of some files, which are read in the order of the arguments and each in the
format that is asked for or that its name stands for.

* `CommandLine.run` is the outcome for some arguments, where a function gives what a file holds.
-/

namespace SampleSchema

/-- A reason why there is no text at a path. -/
inductive FileError where
  /-- There is nothing. -/
  | missing
  /-- There is a folder. -/
  | folder
  /-- The path leads through a file. -/
  | throughFile
  /-- The file holds bytes that are no text. -/
  | notText
  /-- Something else is in the way. -/
  | unreadable
  deriving DecidableEq, Repr

namespace CommandLine

/-- The text that bytes write, with every line ended by a line feed. -/
def textOf (bytes : ByteArray) : Except FileError String :=
  match String.fromUTF8? bytes with
  | some s => .ok (String.ofList (Text.withLineFeeds s.toList))
  | none   => .error .notText

/-- A reason why there is no report on some files. -/
inductive Failure where
  | file (error : FileError)
  | read (error : ReadError)
  | run (error : RunError)
  /-- The report cannot be printed. -/
  | unprintable
  deriving DecidableEq, Repr

section
variable (p : Packages)

/-- The samples of a file. -/
def samplesAt (bytesAt : SamplePath → Except FileError ByteArray) (a : Arguments)
    (path : SamplePath) : Except Failure (List Sample) := do
  let format ← match a.format <|> path.format? with
    | some f => .ok f
    | none   => .error (.read (.malformed (.undetectedFormat path.text)))
  let text ← ((bytesAt path).bind textOf).mapError .file
  (format.read p.reading a.numericColumns text).mapError .read

/-- The report that arguments ask for. -/
def report (bytesAt : SamplePath → Except FileError ByteArray) (a : Arguments) :
    Except Failure Report := do
  let samples ← a.paths.mapM (samplesAt p bytesAt a)
  let settings : Settings := {}
  (settings.report a.rootName (if a.parallel then some true else none) samples.flatten).mapError .run

end

/-- The words for a failure, unless it is one that nobody foresaw. -/
def Failure.message? : Failure → Option String
  | .read (.malformed e) => some e.message
  | .run (.collision c)  => some c.message
  | .file _ | .read _ | .run _ | .unprintable => none

/-- What comes of a run. -/
inductive Outcome where
  /-- Help was asked for. -/
  | help
  /-- The arguments do not fit the usage. -/
  | usage
  /-- The text of the report. -/
  | report (text : String)
  /-- Why there is no report, in words. -/
  | refused (message : String)
  /-- A failure without words. -/
  | failed (failure : Failure)
  deriving DecidableEq, Repr

/-- The outcome for a failure. -/
def Outcome.ofFailure (e : Failure) : Outcome :=
  match e.message? with
  | some message => .refused message
  | none         => .failed e

section
variable (p : Packages)

/-- The outcome for a report or the failure to make one. -/
def Outcome.of : Except Failure Report → Outcome
  | .ok r    => if p.writer.prints r then .report r.toJson.text else .ofFailure .unprintable
  | .error e => .ofFailure e

/-- What comes of a run with arguments. -/
def run (bytesAt : SamplePath → Except FileError ByteArray) (arguments : List String) : Outcome :=
  match Arguments.read arguments with
  | .error .help  => .help
  | .error .usage => .usage
  | .ok a         => .of p (report p bytesAt a)

end

/-- The status that a run ends with. -/
def Outcome.status : Outcome → UInt32
  | .help | .report _   => 0
  | .usage | .refused _ => 2
  | .failed _           => 1

/-- The text on standard output after a run that asks for nothing else than a report. -/
def Outcome.output : Outcome → String
  | .report text => text ++ "\n"
  | _            => ""

/-- The text on standard error after a run whose arguments are in order. -/
def Outcome.complaint : Outcome → String
  | .refused message => "error: " ++ message ++ "\n"
  | _                => ""

end CommandLine

end SampleSchema
