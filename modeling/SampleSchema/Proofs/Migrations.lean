import SampleSchema.Deployment
import SampleSchema.Proofs.Databases

/-!
# What commands do

A command leaves the database alone or migrates it (`Deployment.run_cases`).  From the base an upgrade
to the latest version makes the table for runs (`Deployment.run_upgrade`), and a downgrade to the base
drops it with all its rows (`Deployment.run_downgrade`).  What resolves revisions is only known to lead
in the direction of the command or nowhere.
-/

namespace SampleSchema

theorem perform?_upgrade : runsMigration.upgrade.foldlM TableChange.perform? [] =
    some [⟨runsLayout, []⟩] := rfl

theorem perform?_downgrade (rows : List StoredRun) :
    runsMigration.downgrade.foldlM TableChange.perform? [⟨runsLayout, rows⟩] = some [] := rfl

namespace Deployment

variable {p : Packages}

/-- A command leaves the database alone, or it makes the changes of the migration and sets the version. -/
theorem run_cases (hp : p.Lawful) (d : Deployment p) (m : Move) : (d.run m).2 = d ∨
    ∃ database, m.offline = false ∧ d.version ≠ m.direction.target ∧
      p.versioning.target d.version m.direction m.revision = .ok m.direction.target ∧
      p.database.perform? d.database (runsMigration.changes m.direction) = some database ∧
      d.run m = (.ok none, ⟨m.direction.target, database⟩) := by
  unfold run
  cases hoffline : m.offline with
  | true => exact .inl rfl
  | false =>
      rw [if_neg Bool.false_ne_true]
      unfold moveTo
      cases htarget : p.versioning.target d.version m.direction m.revision with
      | error e => exact .inl rfl
      | ok version =>
          dsimp only
          by_cases hsame : version = d.version
          · rw [if_pos hsame]
            exact .inl rfl
          · rw [if_neg hsame]
            obtain hcurrent | rfl := hp.versioning.target_cases htarget
            · exact absurd hcurrent hsame
            cases hperform : p.database.perform? d.database (runsMigration.changes m.direction) with
            | none => exact .inl rfl
            | some database => exact .inr ⟨database, rfl, fun h => hsame h.symm, rfl, rfl, rfl⟩

/-- An offline command, one that fails, one that asks for the current version and one after which the
version is the same leave the database alone. -/
theorem run_eq_self (hp : p.Lawful) {d : Deployment p} {m : Move}
    (h : m.offline = true ∨ (∃ e, (d.run m).1 = .error e) ∨
      p.versioning.target d.version m.direction m.revision = .ok d.version ∨
      (d.run m).2.version = d.version) : (d.run m).2 = d := by
  obtain hsame | ⟨database, honline, hne, htarget, -, hrun⟩ := d.run_cases hp m
  · exact hsame
  · rcases h with hoffline | ⟨e, he⟩ | hcurrent | hversion
    · rw [honline] at hoffline
      cases hoffline
    · rw [hrun] at he
      cases he
    · exact absurd (Except.ok.inj (hcurrent.symm.trans htarget)) hne
    · rw [hrun] at hversion
      exact absurd hversion.symm hne

/-- A move to another version makes the changes of the migration, if the database takes them. -/
theorem run_of_target {d : Deployment p} {direction : Direction} {revision : String}
    {database : p.database.State} (hne : d.version ≠ direction.target)
    (htarget : p.versioning.target d.version direction revision = .ok direction.target)
    (hperform : p.database.perform? d.database (runsMigration.changes direction) = some database) :
    d.run ⟨direction, revision, false⟩ = (.ok none, ⟨direction.target, database⟩) := by
  have hmove : d.moveTo direction revision = .ok ⟨direction.target, database⟩ := by
    rw [moveTo, htarget]
    dsimp only
    rw [if_neg fun h => hne h.symm, hperform]
  rw [run, if_neg Bool.false_ne_true, hmove]

/-- An upgrade of a database without tables makes the table for runs. -/
theorem run_upgrade (hp : p.Lawful) {d : Deployment p} (hversion : d.version = .base)
    (htables : d.tables = []) : ∃ database, p.database.tables database = [⟨runsLayout, []⟩] ∧
      d.run ⟨.upgrade, "head", false⟩ = (.ok none, ⟨.latest, database⟩) := by
  have hperform : (p.database.perform? d.database runsMigration.upgrade).map p.database.tables =
      some [⟨runsLayout, []⟩] := by
    rw [hp.database.tables_perform?, show p.database.tables d.database = [] from htables,
      perform?_upgrade]
  obtain ⟨database, hdatabase, hlayout⟩ := Option.map_eq_some_iff.mp hperform
  exact ⟨database, hlayout,
    run_of_target (by rw [hversion]; decide) (hp.versioning.head _) hdatabase⟩

/-- A downgrade drops the table with all its rows. -/
theorem run_downgrade (hp : p.Lawful) {d : Deployment p} {rows : List StoredRun}
    (hversion : d.version = .latest) (htables : d.tables = [⟨runsLayout, rows⟩]) :
    ∃ database, p.database.tables database = [] ∧
      d.run ⟨.downgrade, "base", false⟩ = (.ok none, ⟨.base, database⟩) := by
  have hperform : (p.database.perform? d.database runsMigration.downgrade).map p.database.tables =
      some [] := by
    rw [hp.database.tables_perform?, show p.database.tables d.database = [⟨runsLayout, rows⟩] from
      htables, perform?_downgrade]
  obtain ⟨database, hdatabase, hlayout⟩ := Option.map_eq_some_iff.mp hperform
  exact ⟨database, hlayout,
    run_of_target (by rw [hversion]; decide) (hp.versioning.base _) hdatabase⟩

end Deployment

end SampleSchema
