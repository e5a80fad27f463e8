import SampleSchema.Proofs.Migrations
import SampleSchema.Proofs.SameRuns

/-!
# Where a database can stand

Commands and requests reach a database in any order.  It stands at the base without a table, or at the
latest version with the runs that have been stored since the upgrade (`Observed.Standing`), and every
event keeps it so (`Observed.Standing.after`).

* `Observed.Keeps` says what the exchanges since the upgrade leave, and one more exchange keeps it
  (`Observed.Keeps.request`).  The database that the service would have made for itself serves the same
  requests next to it.
-/

namespace SampleSchema

/-! ### Requests that store a run -/

namespace Service

section
variable (p : Packages)

/-- Whether a request submits something to be stored that has a report, the parts of which can be
stored. -/
def storesRun (r : Request) : Bool :=
  match p.framework.dispatch r with
  | .infer s =>
    match s.report p.reading {} with
    | .ok report => s.persist && p.writer.dumps report
    | .error _   => false
  | _ => false

/-- Whether a request asks for its run to be stored and is answered with a report. -/
def answersStored (r : Request) (response : Response) : Bool :=
  match p.framework.dispatch r with
  | .infer s => s.persist && response.status = 200
  | _        => false

theorem storesRun_iff {r : Request} : storesRun p r = true ↔ ∃ s report, Stores p r s report := by
  unfold storesRun
  split
  · rename_i s hcall
    split
    · rename_i report hreport
      rw [Bool.and_eq_true]
      refine ⟨fun h => ⟨s, report, hcall, h.1, hreport, h.2⟩, fun ⟨s', report', h⟩ => ?_⟩
      cases hcall.symm.trans h.call
      cases hreport.symm.trans h.result
      exact ⟨h.persist, h.dumps⟩
    · rename_i e hreport
      refine iff_of_false Bool.false_ne_true fun ⟨s', report, h⟩ => ?_
      cases hcall.symm.trans h.call
      cases hreport.symm.trans h.result
  · rename_i hcall
    exact iff_of_false Bool.false_ne_true fun ⟨s, report, h⟩ => hcall s h.call

end

section
variable {p : Packages} {db : p.database.State} {r : Request}

/-- Without a table no request changes the database. -/
theorem handle_of_rows?_none (hp : p.Lawful) (hdb : p.database.rows? db = none) :
    (handle p db r).2 = db := by
  by_cases hstores : ∃ s report, Stores p r s report
  · obtain ⟨s, report, h⟩ := hstores
    rw [h.handle_eq, hp.database.insert_none hdb]
  · exact (handle_of_not_stores fun s report h => hstores ⟨s, report, h⟩).1

/-- A request that has to be stored is answered with a report exactly if that is stored and can be
written. -/
theorem status_handle_stores_iff (hp : p.Lawful) {xs : List RunRecord}
    (hdb : p.database.rows? db = some (RunRecord.rows xs)) {s : Submission}
    (hcall : p.framework.dispatch r = .infer s) (hpersist : s.persist = true) :
    (handle p db r).1.status = 200 ↔
      ∃ report, Stores p r s report ∧ p.writer.writes report = true := by
  obtain ⟨ys, -, hfollows⟩ := follows_handle hp hdb r
  refine ⟨hfollows.accepted hcall hpersist, fun ⟨report, hstores, hwrites⟩ => ?_⟩
  obtain ⟨createdAt, -, hanswer⟩ := hfollows.stored hstores
  rw [hanswer, if_pos hwrites]
  rfl

/-- Requests after others are answered from the database that these leave. -/
theorem serve_concat (p : Packages) (r : Request) : ∀ (rs : List Request) (db : p.database.State),
    serve p db (rs ++ [r]) = ((serve p db rs).1 ++ [(handle p (serve p db rs).2 r).1],
      (handle p (serve p db rs).2 r).2)
  | [], db       => rfl
  | r' :: rs, db => by
      simp only [List.cons_append, serve, serve_concat p r rs]

end

end Service

/-! ### Commands and requests in any order -/

/-- What reaches a database. -/
inductive Event where
  | command (m : Move)
  | request (r : Service.Request)

/-- A database with the requests since the upgrade that made its table, and their answers; there are none
while the table is missing. -/
structure Observed (p : Packages) where
  deployment : Deployment p
  exchanges? : Option (List (Service.Request × Service.Response))

namespace Observed

variable {p : Packages}

/-- After one more event. A command that changes the version starts or ends the list of exchanges. -/
def after (o : Observed p) : Event → Observed p
  | .command m =>
    let d := (o.deployment.run m).2
    ⟨d, match o.deployment.version, d.version with
      | .base, .latest => some []
      | .latest, .base => none
      | _, _           => o.exchanges?⟩
  | .request r =>
    let (answer, d) := o.deployment.handle r
    ⟨d, o.exchanges?.map (· ++ [(r, answer)])⟩

/-- How many exchanges stored a run. -/
def storedCount (p : Packages) (exchanges : List (Service.Request × Service.Response)) : Nat :=
  exchanges.countP fun x => Service.storesRun p x.1

/-- How many exchanges answered a run that was to be stored. -/
def answeredCount (p : Packages) (exchanges : List (Service.Request × Service.Response)) : Nat :=
  exchanges.countP fun x => Service.answersStored p x.1 x.2

open Service in
/-- Whether some runs are those that exchanges leave in a database: there is one for each exchange that
stored one, and the answers are those of a database that is made for stored runs, but for the times. -/
structure Keeps (p : Packages) (exchanges : List (Request × Response)) (xs : List RunRecord) :
    Prop where
  count   : xs.length = storedCount p exchanges
  answers : List.Forall₂ SameButTimes (exchanges.map Prod.snd)
    (serve p p.database.created (exchanges.map Prod.fst)).1
  same    : ∃ ys, p.database.rows? (serve p p.database.created (exchanges.map Prod.fst)).2 =
    some (RunRecord.rows ys) ∧ xs.map RunRecord.run = ys.map RunRecord.run
  /-- A run that was to be stored was answered exactly if it was stored and could be written. -/
  status  : ∀ x ∈ exchanges, ∀ s, p.framework.dispatch x.1 = .infer s → s.persist = true →
    (x.2.status = 200 ↔ ∃ report, Stores p x.1 s report ∧ p.writer.writes report = true)

/-- Where a database can stand: at the base without a table, or at the latest version with the runs that
the exchanges leave. -/
inductive Standing : Observed p → Prop where
  | base {database : p.database.State} (htables : p.database.tables database = []) :
      Standing ⟨⟨.base, database⟩, none⟩
  | latest {database : p.database.State} {exchanges : List (Service.Request × Service.Response)}
      {xs : List RunRecord}
      (htables : p.database.tables database = [⟨runsLayout, RunRecord.rows xs⟩])
      (hkeeps : Keeps p exchanges xs) : Standing ⟨⟨.latest, database⟩, some exchanges⟩

theorem rows?_of_tables_nil {database : p.database.State} (h : p.database.tables database = []) :
    p.database.rows? database = none := by
  rw [Database.rows?, h]
  rfl

/-- A database with the table of runs has its rows. -/
theorem rows?_of_tables {database : p.database.State} {rows : List StoredRun}
    (h : p.database.tables database = [⟨runsLayout, rows⟩]) :
    p.database.rows? database = some rows := by
  rw [Database.rows?, h]
  rfl

section
variable (hp : p.Lawful)
include hp

theorem keeps_nil : Keeps p [] [] where
  count   := rfl
  answers := .nil
  same    := ⟨[], hp.database.rows?_created, rfl⟩
  status  := nofun

/-- A command leaves a database standing. -/
theorem Standing.command {o : Observed p} (h : Standing o) (m : Move) :
    Standing (o.after (.command m)) := by
  rw [after]
  obtain hsame | ⟨database, -, hne, -, hperform, hrun⟩ := o.deployment.run_cases hp m
  · rw [hsame]
    cases h with
    | base htables => exact .base htables
    | latest htables hkeeps => exact .latest htables hkeeps
  · have htables' := hp.database.tables_of_perform? hperform
    rw [hrun]
    cases h with
    | base htables =>
        rw [htables] at htables'
        cases hdirection : m.direction with
        | downgrade =>
            rw [hdirection] at hne
            exact absurd rfl hne
        | upgrade =>
            rw [hdirection] at htables'
            have hlayout : p.database.tables database = [⟨runsLayout, RunRecord.rows []⟩] :=
              Option.some.inj (htables'.symm.trans perform?_upgrade)
            exact .latest hlayout (keeps_nil hp)
    | latest htables hkeeps =>
        rw [htables] at htables'
        cases hdirection : m.direction with
        | upgrade =>
            rw [hdirection] at hne
            exact absurd rfl hne
        | downgrade =>
            rw [hdirection] at htables'
            exact .base (Option.some.inj (htables'.symm.trans (perform?_downgrade _)))

open Service in
/-- One more exchange leaves one more run or none. -/
theorem Keeps.request {exchanges : List (Request × Response)} {xs xs' : List RunRecord}
    {db : p.database.State} (h : Keeps p exchanges xs)
    (hdb : p.database.rows? db = some (RunRecord.rows xs)) (r : Request)
    (hdb' : p.database.rows? (handle p db r).2 = some (RunRecord.rows xs'))
    (hlength : xs'.length = xs.length + if storesRun p r then 1 else 0) :
    Keeps p (exchanges ++ [(r, (handle p db r).1)]) xs' := by
  obtain ⟨ys, hys, hsame⟩ := h.same
  obtain ⟨hanswer, xs₁, ys', hxs₁, hys', hsame'⟩ := sameButTimes_handle hp hdb hys hsame r
  have hrows : xs'.map RunRecord.run = xs₁.map RunRecord.run := by
    have hrun : ∀ xs, (RunRecord.rows xs).map StoredRun.toRun = xs.map RunRecord.run := by
      intro xs
      rw [RunRecord.rows, List.map_map]
      exact (List.map_map (f := Prod.fst) (g := RunRecord.run)).symm.trans
        (congrArg _ (List.zipIdx_map_fst 1 xs))
    rw [← hrun, ← hrun, Option.some.inj (hdb'.symm.trans hxs₁)]
  refine ⟨?_, ?_, ?_, ?_⟩
  · rw [storedCount, List.countP_append, List.countP_singleton, ← storedCount, ← h.count, hlength]
  · rw [List.map_append, List.map_append, List.map_singleton, List.map_singleton, serve_concat]
    exact List.rel_append h.answers (.cons hanswer .nil)
  · rw [List.map_append, List.map_singleton, serve_concat]
    exact ⟨ys', hys', hrows.trans hsame'⟩
  · intro x hx s hcall hpersist
    obtain hx | hx := List.mem_append.mp hx
    · exact h.status x hx s hcall hpersist
    · obtain rfl := List.mem_singleton.mp hx
      exact status_handle_stores_iff hp hdb hcall hpersist

/-- A request leaves a database standing. -/
theorem Standing.request {o : Observed p} (h : Standing o) (r : Service.Request) :
    Standing (o.after (.request r)) := by
  cases h with
  | @base database htables =>
      have hkept := Service.handle_of_rows?_none (r := r) hp (rows?_of_tables_nil htables)
      simp only [after, Deployment.handle, hkept]
      exact .base htables
  | @latest database exchanges xs htables hkeeps =>
      have hrows := rows?_of_tables htables
      have hevent : after ⟨⟨.latest, database⟩, some exchanges⟩ (.request r) =
          ⟨⟨.latest, (Service.handle p database r).2⟩,
            some (exchanges ++ [(r, (Service.handle p database r).1)])⟩ := rfl
      rw [hevent]
      by_cases hstores : Service.storesRun p r = true
      · obtain ⟨s, report, h⟩ := (Service.storesRun_iff p).mp hstores
        obtain ⟨t, createdAt, hinsert, ht, htables'⟩ :=
          hp.database.insert_record hrows s.format report
        have hafter : (Service.handle p database r).2 = t := by rw [h.handle_eq, hinsert]
        have hlayout : p.database.tables t = [⟨runsLayout, RunRecord.rows
            (xs ++ [.of s.format report createdAt])⟩] := by
          rw [htables', htables, RunRecord.rows_concat]
          rfl
        refine .latest (by rw [hafter, hlayout])
          (hkeeps.request hp hrows r (by rw [hafter, ht]) ?_)
        rw [if_pos hstores, List.length_append]
        rfl
      · have hnone : ∀ s report, ¬ Service.Stores p r s report := fun s report h =>
          hstores ((Service.storesRun_iff p).mpr ⟨s, report, h⟩)
        have hafter : (Service.handle p database r).2 = database :=
          (Service.handle_of_not_stores hnone).1
        refine .latest (by rw [hafter, htables]) (hkeeps.request hp hrows r (by rw [hafter, hrows]) ?_)
        rw [if_neg hstores, Nat.add_zero]

theorem Standing.after {o : Observed p} (h : Standing o) : ∀ e : Event, Standing (o.after e)
  | .command m => h.command hp m
  | .request r => h.request hp r

end

open Service in
/-- If all that is stored can be written, one run is stored for each that is answered. -/
theorem Keeps.storedCount_eq {exchanges : List (Request × Response)}
    {xs : List RunRecord} (h : Keeps p exchanges xs)
    (hwrites : ∀ x ∈ exchanges, ∀ s report, Stores p x.1 s report → p.writer.writes report = true) :
    storedCount p exchanges = answeredCount p exchanges := by
  refine List.countP_congr fun x hx => ?_
  rw [storesRun_iff, answersStored]
  split
  · rename_i s hcall
    rw [Bool.and_eq_true, decide_eq_true_iff]
    constructor
    · rintro ⟨s', report, hstores⟩
      cases hcall.symm.trans hstores.call
      exact ⟨hstores.persist, (h.status x hx s hcall hstores.persist).mpr
        ⟨report, hstores, hwrites x hx s report hstores⟩⟩
    · rintro ⟨hpersist, hstatus⟩
      obtain ⟨report, hstores, -⟩ := (h.status x hx s hcall hpersist).mp hstatus
      exact ⟨s, report, hstores⟩
  · rename_i hcall
    exact iff_of_false (fun ⟨s, report, hstores⟩ => hcall s hstores.call) Bool.false_ne_true

end Observed

end SampleSchema
