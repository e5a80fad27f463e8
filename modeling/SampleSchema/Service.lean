import SampleSchema.Packages

/-!
# The service

Calls and their answers.  A submission is answered with the report on it and, unless it asks not to be,
stored; stored runs are listed a page at a time, the newest first, or looked up by number.  Whatever
the database cannot do and whatever cannot be written into an answer makes a request fail, in the latter
case after the run has been stored.

* `Service.handle` is the answer to a request with the database after it.
-/

namespace SampleSchema.Service

/-- The answer that holds data. -/
def answer (data : Json) : Response := ⟨200, .value (.object [("data", data)])⟩

/-- The answer to a submission that has no report. -/
def unreported : Submission.Failure → Response
  | .read (.malformed e)  => ⟨422, .reason e.message⟩
  | .run (.collision c)   => ⟨409, .reason c.message⟩
  | .read _ | .run _      => failed

section
variable (p : Packages)

/-- The answer that holds a report. -/
def reported (r : Report) : Response := if p.writer.writes r then answer r.toJson else failed

variable (db : p.database.State)

/-- Stores the report on a submission, if it is to be stored, and answers it with the number of its run.
The run stays stored when the answer cannot be written. -/
def store (s : Submission) (r : Report) : Response × p.database.State :=
  if s.persist then
    if p.writer.dumps r then
      match p.database.insert db (.of s.format r) with
      | some (number, after) => (reported p { r with runId := some number }, after)
      | none                 => (failed, db)
    else (failed, db)
  else (reported p r, db)

/-- Answers a submission. -/
def submit (s : Submission) : Response × p.database.State :=
  match s.report p.reading {} with
  | .ok r    => store p db s r
  | .error e => (unreported e, db)

/-- Answers a request for a page of runs. -/
def list (limit offset : Nat) : Response :=
  match p.database.page db limit offset, p.database.count db with
  | some runs, some total =>
    if runs.all (p.writer.shows ·.toRun) then
      let window : Json := .object [("total", .int total), ("limit", .int limit), ("offset", .int offset)]
      ⟨200, .value (.object [("data", .array (runs.map StoredRun.toJson)), ("meta", window)])⟩
    else failed
  | _, _ => failed

/-- The answer to a request for a run that does not exist. -/
def unknownRun (number : Nat) : Response :=
  ⟨404, .reason ("Inference run " ++ Nat.repr number ++ " not found")⟩

/-- Answers a request for one run. -/
def lookUp (number : Nat) : Response :=
  match p.database.find db number with
  | none            => failed
  | some none       => unknownRun number
  | some (some run) => if p.writer.shows run.toRun then answer run.toJson else failed

/-- Answers a call. -/
def visit : Call → Response × p.database.State
  | .infer s           => submit p db s
  | .page limit offset => (list p db limit offset, db)
  | .run number        => (lookUp p db number, db)
  | .health            => (⟨200, .value (.object [("status", .string "ok")])⟩, db)
  | .answered response => (response, db)

/-- Answers a request. -/
def handle (r : Request) : Response × p.database.State := visit p db (p.framework.dispatch r)

end

end SampleSchema.Service
