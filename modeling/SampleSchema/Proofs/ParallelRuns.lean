import SampleSchema.Proofs.Diagnostics

/-!
# Reports of parallel runs

A run that is parallel finds the same types as one that is not, and conflicts at the same paths, or it
fails for the same reason (`Settings.sameTypes_report`): both name the summary of what is observed
(`Settings.report_eq`).
-/

namespace SampleSchema

/-- Whether two reports tell the same types, and conflicts at the same paths. -/
structure Report.SameTypes (p q : Report) : Prop where
  runId        : p.runId = q.runId
  rootTypeName : p.rootTypeName = q.rootTypeName
  sampleCount  : p.sampleCount = q.sampleCount
  root         : p.root = q.root
  definitions  : p.definitions = q.definitions
  paths        : ∀ path, (∃ c ∈ p.conflicts, c.path = path) ↔ ∃ c ∈ q.conflicts, c.path = path

section
open Observation
variable {samples : List Sample} (h : ∀ v ∈ samples, v.hasDistinctNames = true)
include h

/-- A report is that of the summary, whether the run is parallel or not. -/
theorem Settings.report_eq {s : Settings} {o : Options} (ho : s.options = .ok o)
    (rootName : Option String) (parallel : Option Bool) :
    s.report rootName parallel samples =
      match (summary (samples.map o.observe)).named
          (givenOr (some (typeName (givenOr rootName s.rootTypeName))) s.rootTypeName) with
      | .error c => .error (.collision c)
      | .ok schema =>
        .ok (Inferred.report ⟨schema, summary (samples.map o.observe),
          o.inferConflicts (parallel.getD (s.parallelThreshold ≤ samples.length)) samples,
          samples.length⟩ (typeName (givenOr rootName s.rootTypeName)) none) := by
  have hoptions : ∀ r : RunRequest, r.options = none → s.optionsFor r = .ok o := by
    intro r hr
    rw [optionsFor, hr]
    exact ho
  rw [report, s.run_eq (hoptions _ rfl)]
  simp only [RunRequest.isParallel, Option.getD_none, Int.lt_irrefl, decide_false, Bool.and_false,
    Bool.false_eq_true, if_false, o.inferMerged_eq_summary _ h]
  cases (summary (samples.map o.observe)).named _ <;> rfl

/-- A run finds the same types, and conflicts at the same paths, whether it is parallel or not, or it
fails for the same reason. -/
theorem Settings.sameTypes_report (s : Settings) (rootName : Option String)
    (parallel parallel' : Option Bool) :
    (∃ p q, s.report rootName parallel samples = .ok p ∧
      s.report rootName parallel' samples = .ok q ∧ p.SameTypes q) ∨
    s.report rootName parallel samples = s.report rootName parallel' samples := by
  cases ho : s.options with
  | error e =>
      have hfails : ∀ r : RunRequest, r.options = none → s.run r samples = .error (.options e) := by
        intro r hr
        rw [run, hr, ho]
        rfl
      rw [report, report, hfails _ rfl, hfails _ rfl]
      exact .inr rfl
  | ok o =>
      rw [report_eq h ho, report_eq h ho]
      cases (summary (samples.map o.observe)).named _ with
      | error c => exact .inr rfl
      | ok schema =>
          refine .inl ⟨_, _, rfl, rfl, rfl, rfl, rfl, rfl, rfl, fun path => ?_⟩
          exact (o.paths_inferConflicts h _ path).trans (o.paths_inferConflicts h _ path).symm

end

end SampleSchema
