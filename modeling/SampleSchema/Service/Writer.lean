import SampleSchema.Service.Run

/-!
# Writing answers

Reports and stored runs are written as JSON by a package that has limits of its own, so that what is
nested too deeply is not written.

* `Writer` tells what is written, and `Writer.Lawful` what the service relies on.
-/

namespace SampleSchema.Service

/-- What is written as JSON. -/
structure Writer where
  /-- Whether the parts of a report are made into what is stored. -/
  dumps  : Report → Bool
  /-- Whether a report is written into an answer. -/
  writes : Report → Bool
  /-- Whether a report is printed as a text of its own. -/
  prints : Report → Bool
  /-- Whether a stored run is written into an answer, whatever its number and its time are. -/
  shows  : Run → Bool

/-- What the service relies on in a writer: what fits into an answer can be stored and printed, what is
printed fits into an answer, and the number of a run and its conflicts, which are flat, do not matter. -/
structure Writer.Lawful (w : Writer) : Prop where
  dumps_of_writes  : ∀ {r}, w.writes r = true → w.dumps r = true
  prints_eq        : ∀ r, w.prints r = w.writes r
  writes_number    : ∀ (r : Report) (number : Option Nat),
    w.writes { r with runId := number } = w.writes r
  writes_conflicts : ∀ (r : Report) (conflicts : List Conflict),
    w.writes { r with conflicts := conflicts } = w.writes r

end SampleSchema.Service
