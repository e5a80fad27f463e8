import SampleSchema.Inference
import SampleSchema.Naming
import SampleSchema.Report
import SampleSchema.Validation

/-!
# Inference runs

A run infers the schema of every sample, merges the schemas and names the result. A parallel run
merges in adjacent pairs instead of from left to right; the order in which it records conflicts is
not determined, so it lists them by path and kinds. A run is parallel when that is asked for, or by
default from a number of samples on.

* `Settings.run` is a run, `Settings.report` the report of one.
-/

namespace SampleSchema

/-- What runs have in common. -/
structure Settings where
  rootTypeName      : String := "Root"
  intMin            : Int := -9223372036854775808
  intMax            : Int := 9223372036854775807
  /-- The names of the timestamp layouts to try; all layouts when missing. -/
  layouts           : Option (List String) := none
  /-- The number of samples from which a run is parallel. -/
  parallelThreshold : Int := 512
  maxWorkers        : Option Int := none

/-- The rules that settings break. -/
def Settings.problems (s : Settings) : List Problem :=
  (if s.parallelThreshold < 2 then [⟨.tooSmall, [.member "parallel_threshold"]⟩] else []) ++
    if s.maxWorkers.any (· < 1) then [⟨.tooSmall, [.member "max_workers"]⟩] else []

/-- The options that settings ask for. -/
def Settings.options (s : Settings) : Except OptionsError Options :=
  Options.of s.layouts s.intMin s.intMax

/-- The first text unless it is missing or empty, and else the second. -/
def givenOr (given : Option String) (otherwise : String) : String :=
  match given with
  | some s => if s = "" then otherwise else s
  | none => otherwise

/-- The result of a run. -/
structure Inferred where
  schema      : NamedSchema
  merged      : Schema
  conflicts   : List Conflict
  sampleCount : Int

/-- A reason why a run fails. -/
inductive RunError where
  | options (error : OptionsError)
  /-- A parallel run with a negative number of workers. -/
  | workers (count : Int)
  | collision (collision : NameCollision)
  deriving DecidableEq, Repr

/-- What a single run asks for beyond the settings. -/
structure RunRequest where
  rootName   : Option String := none
  /-- Whether the run is parallel; by default that depends on the number of samples. -/
  parallel   : Option Bool := none
  maxWorkers : Option Int := none
  /-- Options in place of those of the settings. -/
  options    : Option Options := none

/-- Whether a run over a number of samples is parallel. -/
def RunRequest.isParallel (r : RunRequest) (s : Settings) (sampleCount : Nat) : Bool :=
  r.parallel.getD (s.parallelThreshold ≤ sampleCount)

/-- The merge of the schemas of samples; without samples it is null. -/
def Options.inferMerged (o : Options) (parallel : Bool) (samples : List Sample) : Schema :=
  let schemas := o.inferAll samples
  ((if parallel then mergeTree schemas else mergeAll schemas).getD .null)

/-- What is recorded while inferring and merging the schemas of samples. -/
def Options.inferConflicts (o : Options) (parallel : Bool) (samples : List Sample) :
    List Conflict :=
  let schemas := o.inferAll samples
  let inside := samples.flatMap (o.conflicts "")
  if parallel then (inside ++ mergeTreeConflicts schemas).mergeSort Conflict.ordered
  else inside ++ mergeAllConflicts schemas

/-- A run over samples. -/
def Settings.run (s : Settings) (r : RunRequest) (samples : List Sample) :
    Except RunError Inferred := do
  let options ← match r.options with
    | some o => .ok o
    | none => s.options.mapError .options
  let parallel := r.isParallel s samples.length
  let workers := r.maxWorkers.getD 0
  if parallel && 1 < samples.length && workers < 0 then throw (.workers workers)
  let merged := options.inferMerged parallel samples
  let schema ← (merged.named (givenOr r.rootName s.rootTypeName)).mapError .collision
  return ⟨schema, merged, options.inferConflicts parallel samples, samples.length⟩

/-- The report of a result under a root name. -/
def Inferred.report (i : Inferred) (rootTypeName : String) (runId : Option Nat) : Report where
  runId        := runId
  rootTypeName := rootTypeName
  sampleCount  := i.sampleCount
  root         := i.schema.root.descriptor
  definitions  := i.schema.definitions.map Definition.report
  conflicts    := i.conflicts

/-- The report of a run under a root name, or under that of the settings, made into the name of a
type. -/
def Settings.report (s : Settings) (rootName : Option String) (parallel : Option Bool)
    (samples : List Sample) : Except RunError Report := do
  let root := typeName (givenOr rootName s.rootTypeName)
  let inferred ← s.run { rootName := some root, parallel := parallel } samples
  return inferred.report root none

end SampleSchema
