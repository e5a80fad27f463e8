import SampleSchema.CommandLine
import SampleSchema.Standard

/-! The program of the command line: it reads the files, prints the outcome and ends with its status. -/

namespace SampleSchema.CommandLine

/-- How the arguments fit together. -/
def usageText : String :=
  "usage: [--help] [--format (json|jsonl|yaml|csv)] [--root-name NAME]\n" ++
  "       [--numeric-column COLUMN]... [--parallel] FILE...\n"

/-- Why a file cannot be read. -/
def fileError : IO.Error → FileError
  | .noFileOrDirectory ..        => .missing
  | .inappropriateType _ code .. => if code = 20 then .throughFile else .folder
  | _                            => .unreadable

/-- The bytes of a file. -/
def readBytes (path : SamplePath) : IO (Except FileError ByteArray) := do
  try return .ok (← IO.FS.readBinFile path.text)
  catch e => return .error (fileError e)

/-- The files that arguments name, with their bytes. -/
def readFiles (arguments : List String) : IO (List (SamplePath × Except FileError ByteArray)) :=
  match Arguments.read arguments with
  | .ok a    => a.paths.mapM fun p => do return (p, ← readBytes p)
  | .error _ => return []

end SampleSchema.CommandLine

open SampleSchema CommandLine in
/-- Runs the command line. -/
def main (arguments : List String) : IO UInt32 := do
  let files ← readFiles arguments
  let outcome := run .standard (fun p => (files.lookup p).getD (.error .missing)) arguments
  IO.print outcome.output
  IO.eprint outcome.complaint
  match outcome with
  | .help     => IO.print usageText
  | .usage    => IO.eprint usageText
  | .failed _ => IO.eprintln "a file or a value in it cannot be read"
  | _         => pure ()
  return outcome.status
