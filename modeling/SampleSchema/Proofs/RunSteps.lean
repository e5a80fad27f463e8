import SampleSchema.Proofs.Databases
import SampleSchema.Proofs.Outcomes

/-!
# Steps of the service

Seen from outside, the service keeps a list of runs that only ever grows at its end.  `Service.Follows`
says what a request does to a list of records and what it is answered, without the database.

* What a request can do to a database is listed once (`Service.Handled`); whatever is kept by requests
  is proved from that, case by case.
* A step of the service is a step of the list (`Service.follows_handle`).

Nothing is assumed of the packages but that they are lawful.  A report whose parts can be stored but
that cannot be written into an answer is one more run all the same, and a run that cannot be shown is
there and not shown.
-/

namespace SampleSchema.Service

/-! ### What a request does to a database -/

/-- Whether a request submits something to be stored that has a report, the parts of which can be
stored. -/
structure Stores (p : Packages) (r : Request) (s : Submission) (report : Report) : Prop where
  call    : p.framework.dispatch r = .infer s
  persist : s.persist = true
  result  : s.report p.reading {} = .ok report
  dumps   : p.writer.dumps report = true

/-- All that a request can do to a database: nothing, unless there is something to be stored, and
otherwise one more run, if the database takes it. -/
inductive Handled (p : Packages) (db : p.database.State) (r : Request) :
    Response → p.database.State → Prop where
  | kept {response : Response} (h : ∀ s report, ¬ Stores p r s report)
      (hanswer : ∀ s, p.framework.dispatch r = .infer s → s.persist = true → response.status ≠ 200) :
      Handled p db r response db
  | missing {s : Submission} {report : Report} (h : Stores p r s report)
      (hinsert : p.database.insert db (.of s.format report) = none) : Handled p db r failed db
  | stored {s : Submission} {report : Report} {number : Nat} {after : p.database.State}
      (h : Stores p r s report)
      (hinsert : p.database.insert db (.of s.format report) = some (number, after)) :
      Handled p db r (reported p { report with runId := some number }) after

section
variable {p : Packages} {db : p.database.State} {r : Request} {s : Submission} {report : Report}

/-- A request is stored in one way. -/
theorem Stores.unique {s' : Submission} {report' : Report} (h : Stores p r s report)
    (h' : Stores p r s' report') : s = s' ∧ report = report' := by
  cases h.call.symm.trans h'.call
  cases h.result.symm.trans h'.result
  exact ⟨rfl, rfl⟩

theorem status_unreported (e : Submission.Failure) : (unreported e).status ≠ 200 := by
  unfold unreported
  split <;> nofun

/-- A report has no number before it is stored. -/
theorem runId_of_report {settings : Settings} (h : s.report p.reading settings = .ok report) :
    report.runId = none := by
  obtain ⟨samples, -, h⟩ := ok_of_bind h
  obtain ⟨inferred, -, h⟩ := ok_of_bind (ok_of_mapError h)
  cases h
  rfl

theorem handle_of_infer (h : p.framework.dispatch r = .infer s) :
    handle p db r = submit p db s := by
  rw [handle, h, visit]

theorem submit_of_error {e : Submission.Failure} (h : s.report p.reading {} = .error e) :
    submit p db s = (unreported e, db) := by
  rw [submit, h]

theorem submit_of_not_persist (h : s.report p.reading {} = .ok report) (hpersist : s.persist = false) :
    submit p db s = (reported p report, db) := by
  simp only [submit, h, store, hpersist, Bool.false_eq_true, if_false]

theorem submit_of_not_dumps (h : s.report p.reading {} = .ok report) (hpersist : s.persist = true)
    (hdumps : p.writer.dumps report = false) : submit p db s = (failed, db) := by
  simp only [submit, h, store, hpersist, hdumps, if_true, Bool.false_eq_true, if_false]

theorem Stores.handle_eq (h : Stores p r s report) : handle p db r =
    match p.database.insert db (.of s.format report) with
    | some (number, after) => (reported p { report with runId := some number }, after)
    | none                 => (failed, db) := by
  rw [handle_of_infer h.call]
  cases hinsert : p.database.insert db (.of s.format report) <;>
    simp only [submit, h.result, store, h.persist, h.dumps, hinsert, if_true]

/-- **Every request is handled in one of the ways of `Handled`.** -/
theorem handled_handle (p : Packages) (db : p.database.State) (r : Request) :
    Handled p db r (handle p db r).1 (handle p db r).2 := by
  by_cases hstores : ∃ s report, Stores p r s report
  · obtain ⟨s, report, h⟩ := hstores
    rw [h.handle_eq]
    cases hinsert : p.database.insert db (.of s.format report) with
    | none => exact .missing h hinsert
    | some stored => exact .stored h hinsert
  · have hnone : ∀ s report, ¬ Stores p r s report := fun s report h => hstores ⟨s, report, h⟩
    cases hcall : p.framework.dispatch r with
    | infer s =>
        rw [handle_of_infer hcall]
        cases hreport : s.report p.reading {} with
        | error e =>
            rw [submit_of_error hreport]
            exact .kept hnone fun _ _ _ => status_unreported e
        | ok report =>
            cases hpersist : s.persist with
            | false =>
                rw [submit_of_not_persist hreport hpersist]
                refine .kept hnone fun s' hcall' hpersist' => ?_
                cases hcall.symm.trans hcall'
                cases hpersist.symm.trans hpersist'
            | true =>
                have hdumps : p.writer.dumps report = false :=
                  Bool.eq_false_iff.mpr fun hdumps => hnone s report ⟨hcall, hpersist, hreport, hdumps⟩
                rw [submit_of_not_dumps hreport hpersist hdumps]
                exact .kept hnone fun _ _ _ => nofun
    | page limit offset | run number | health | answered response =>
        rw [handle, hcall, visit]
        refine .kept hnone fun s' hcall' => ?_
        cases hcall.symm.trans hcall'

/-- Where there is nothing to be stored, nothing changes. -/
theorem handle_of_not_stores (h : ∀ s report, ¬ Stores p r s report) : (handle p db r).2 = db ∧
    ∀ s, p.framework.dispatch r = .infer s → s.persist = true → (handle p db r).1.status ≠ 200 := by
  have hhandled := handled_handle p db r
  generalize (handle p db r).1 = response, (handle p db r).2 = after at hhandled ⊢
  cases hhandled with
  | kept _ hanswer => exact ⟨rfl, hanswer⟩
  | missing hstores => exact absurd hstores (h _ _)
  | stored hstores => exact absurd hstores (h _ _)

end

/-! ### One step -/

/-- The answer with the runs of a window and how many runs there are. -/
def pageAnswer (limit offset : Nat) (xs : List RunRecord) : Response :=
  ⟨200, .value (.object
    [("data", .array ((RunRecord.window limit offset xs).map fun x => x.1.shown x.2)),
      ("meta", .object [("total", .int xs.length), ("limit", .int limit), ("offset", .int offset)])])⟩

/-- The step of a list of runs at a request that gets an answer. -/
structure Follows (p : Packages) (xs : List RunRecord) (r : Request) (response : Response)
    (ys : List RunRecord) : Prop where
  /-- What is stored is one more run, and the answer, if it can be written, has its number. -/
  stored : ∀ {s report}, Stores p r s report → ∃ createdAt,
    ys = xs ++ [.of s.format report createdAt] ∧
      response = if p.writer.writes report then
        answer ((RunRecord.of s.format report createdAt).posted (some ys.length)) else failed
  /-- No other request changes the list. -/
  kept : (∀ s report, ¬ Stores p r s report) → ys = xs
  /-- A request to read changes it least of all. -/
  got : r.method = "GET" → ys = xs
  /-- A submission to be stored is answered with a report only if that is stored. -/
  accepted : ∀ {s}, p.framework.dispatch r = .infer s → s.persist = true → response.status = 200 →
    ∃ report, Stores p r s report ∧ p.writer.writes report = true
  /-- A run is found exactly under its number, with what was answered when it was stored. -/
  found : ∀ {number}, p.framework.dispatch r = .run number → number < Database.numberLimit →
    1 ≤ number ∧ (xs.length < number → response = unknownRun number) ∧
      ∀ run, xs[number - 1]? = some run → response =
        if p.writer.shows run.run then answer (run.shown number) else failed
  /-- A page is a window on the list from its end. -/
  paged : ∀ {limit offset}, p.framework.dispatch r = .page limit offset →
    offset < Database.numberLimit → response =
      if (RunRecord.window limit offset xs).all (p.writer.shows ·.1.run) then
        pageAnswer limit offset xs else failed

section
variable {p : Packages} (hp : p.Lawful) {db : p.database.State} {xs : List RunRecord}
  (hdb : p.database.rows? db = some (RunRecord.rows xs))
include hp

/-- The answer with a report, as that of a record. -/
theorem reported_eq (f : Format) (report : Report) (createdAt : Moment) (number : Option Nat) :
    reported p { report with runId := number } = if p.writer.writes report then
      answer ((RunRecord.of f report createdAt).posted number) else failed := by
  rw [reported, hp.writer.writes_number, RunRecord.posted_of]

/-- The database cannot be asked for a run whose number is too large. -/
theorem lookUp_of_limit (db : p.database.State) {number : Nat} (h : Database.numberLimit ≤ number) :
    lookUp p db number = failed := by
  rw [lookUp, hp.database.find_none db h]

/-- Nor can it be asked for a page after too many runs. -/
theorem list_of_limit (db : p.database.State) (limit : Nat) {offset : Nat} (h : Database.numberLimit ≤ offset) :
    list p db limit offset = failed := by
  rw [list, hp.database.page_none db limit h]

include hdb

/-- What is stored is the last of the runs. -/
theorem Stores.exists_record {r : Request} {s : Submission} {report : Report}
    (h : Stores p r s report) : ∃ after createdAt,
      handle p db r = (if p.writer.writes report then
        answer ((RunRecord.of s.format report createdAt).posted (some (xs.length + 1))) else failed,
        after) ∧
      p.database.rows? after = some (RunRecord.rows (xs ++ [.of s.format report createdAt])) := by
  obtain ⟨after, createdAt, hinsert, hafter, -⟩ := hp.database.insert_record hdb s.format report
  refine ⟨after, createdAt, ?_, hafter⟩
  rw [h.handle_eq, hinsert, ← reported_eq hp s.format report createdAt]

/-- The answer to a request for the run of a number. -/
theorem lookUp_eq {number : Nat} (hleast : 1 ≤ number) (hlimit : number < Database.numberLimit) :
    lookUp p db number = match xs[number - 1]? with
      | none     => unknownRun number
      | some run => if p.writer.shows run.run then answer (run.shown number) else failed := by
  rw [lookUp, hp.database.find_record hdb hleast hlimit]
  cases xs[number - 1]? <;> rfl

/-- The answer to a request for a page. -/
theorem list_eq {limit offset : Nat} (hlimit : limit < Database.numberLimit)
    (hoffset : offset < Database.numberLimit) :
    list p db limit offset =
      if (RunRecord.window limit offset xs).all (p.writer.shows ·.1.run) then
        pageAnswer limit offset xs else failed := by
  have hshows : ((RunRecord.window limit offset xs).map fun x => x.1.stored x.2).all
      (p.writer.shows ·.toRun) =
        (RunRecord.window limit offset xs).all (p.writer.shows ·.1.run) := List.all_map
  have hdata : ((RunRecord.window limit offset xs).map fun x => x.1.stored x.2).map
      StoredRun.toJson = (RunRecord.window limit offset xs).map fun x => x.1.shown x.2 :=
    List.map_map
  rw [list, hp.database.page_records hdb hlimit hoffset, hp.database.count_record hdb]
  simp only [hshows, hdata, pageAnswer]

/-- The answer to a request and the database after it are a step of the list. -/
theorem follows_handle (r : Request) : ∃ ys,
    p.database.rows? (handle p db r).2 = some (RunRecord.rows ys) ∧
      Follows p xs r (handle p db r).1 ys := by
  have hfound : ∀ {number}, p.framework.dispatch r = .run number →
      handle p db r = (lookUp p db number, db) := fun h => by rw [handle, h, visit]
  have hpaged : ∀ {limit offset}, p.framework.dispatch r = .page limit offset →
      handle p db r = (list p db limit offset, db) := fun h => by rw [handle, h, visit]
  by_cases hstores : ∃ s report, Stores p r s report
  · obtain ⟨s, report, h⟩ := hstores
    obtain ⟨after, createdAt, hhandle, hafter⟩ := h.exists_record hp hdb
    refine ⟨xs ++ [.of s.format report createdAt], by rw [hhandle]; exact hafter, ?_⟩
    rw [hhandle]
    exact
      { stored := fun h' => by
          obtain ⟨rfl, rfl⟩ := h.unique h'
          exact ⟨createdAt, rfl, by rw [List.length_append]; rfl⟩
        kept := fun hnone => absurd h (hnone s report)
        got := fun hget =>
          absurd (hget.symm.trans (hp.framework.infer_method h.call)) (by decide)
        accepted := fun {s'} hcall' _ hstatus => by
          cases h.call.symm.trans hcall'
          refine ⟨report, h, ?_⟩
          by_contra hwrites
          rw [if_neg hwrites] at hstatus
          cases hstatus
        found := fun hcall => nomatch h.call.symm.trans hcall
        paged := fun hcall => nomatch h.call.symm.trans hcall }
  · have hnone : ∀ s report, ¬ Stores p r s report := fun s report h => hstores ⟨s, report, h⟩
    obtain ⟨hkept, hanswer⟩ := (handle_of_not_stores hnone : (handle p db r).2 = db ∧ _)
    refine ⟨xs, by rw [hkept]; exact hdb, fun h => absurd h (hnone _ _), fun _ => rfl,
      fun _ => rfl, fun hcall hpersist hstatus => absurd hstatus (hanswer _ hcall hpersist), ?_, ?_⟩
    · intro number hcall hlimit
      have hleast : 1 ≤ number := hp.framework.run_bounds hcall
      rw [hfound hcall, lookUp_eq hp hdb hleast hlimit]
      refine ⟨hleast, fun hlarge => ?_, fun run hrun => by rw [hrun]⟩
      rw [List.getElem?_eq_none (by omega)]
    · intro limit offset hcall hoffset
      have hlimit : limit < Database.numberLimit :=
        Nat.lt_of_le_of_lt (hp.framework.page_bounds hcall).2 (by decide)
      rw [hpaged hcall, list_eq hp hdb hlimit hoffset]

end

end SampleSchema.Service
