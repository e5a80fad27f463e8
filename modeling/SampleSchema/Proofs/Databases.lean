import SampleSchema.Proofs.RunRecords

/-!
# What lawful databases do

A database that stored nothing but the runs of some records has their rows; what each of its operations
does to such rows, or makes of them, is said once here.

* `Database.Lawful.tables_perform?`: changes to a database are those to its tables.
* `Database.Lawful.rows?_created`, `insert_record`: from no rows, one more with each run.
* `find_record` and `page_records`: what is read.
* `runsLayout_agrees`: a migration and the service make the same table for runs.
-/

namespace SampleSchema

/-! ### The two tables for stored runs -/

/-- The table of runs as the latest version makes it. -/
def runsLayout : TableLayout :=
  runsTable.withIndex ⟨"ix_inference_runs_source_format", ["source_format"], false⟩

theorem fits_layout : StoredRun.fits StoredRun.layout = true := by decide

theorem fits_runsLayout : StoredRun.fits runsLayout = true := by decide

/-- The table of the latest version is the one that stored runs ask for, but for the order of its
columns. -/
theorem runsLayout_agrees : runsLayout.name = StoredRun.layout.name ∧
    runsLayout.columns.Perm StoredRun.layout.columns ∧
    runsLayout.primaryKey = StoredRun.layout.primaryKey ∧
    runsLayout.indexes = StoredRun.layout.indexes := by
  decide

/-! ### Operations -/

namespace Database.Lawful

variable {d : Database} (h : d.Lawful) {s : d.State} {xs : List RunRecord}
include h

/-- Changes to a database are those to its tables. -/
theorem tables_perform? : ∀ (cs : List TableChange) (s : d.State),
    (d.perform? s cs).map d.tables = cs.foldlM TableChange.perform? (d.tables s)
  | [], s      => rfl
  | c :: cs, s => by
      rw [perform?, List.foldlM_cons, List.foldlM_cons, ← h.tables_change s c]
      cases d.change s c with
      | none   => rfl
      | some t => exact tables_perform? cs t

theorem tables_of_perform? {cs : List TableChange} {t : d.State} (ht : d.perform? s cs = some t) :
    cs.foldlM TableChange.perform? (d.tables s) = some (d.tables t) := by
  rw [← h.tables_perform?, ht, Option.map_some]

/-- A database that is made for stored runs has a table for them and no other one. -/
theorem tables_created : d.tables d.created = [⟨StoredRun.layout, []⟩] := by
  have htables : (d.perform? d.blank StoredRun.creation).map d.tables =
      some [⟨StoredRun.layout, []⟩] := by
    rw [h.tables_perform?, h.tables_blank]
    rfl
  obtain ⟨t, ht, htables⟩ := Option.map_eq_some_iff.mp htables
  rw [created, ht, Option.getD_some, htables]

theorem rows?_created : d.rows? d.created = some (RunRecord.rows []) := by
  rw [rows?, h.tables_created]
  rfl

/-- A new run gets the number that says how many there are with it, and is the last row. -/
theorem insert_record (hs : d.rows? s = some (RunRecord.rows xs)) (f : Format) (r : Report) :
    ∃ t createdAt, d.insert s (.of f r) = some (xs.length + 1, t) ∧
      d.rows? t = some (RunRecord.rows (xs ++ [.of f r createdAt])) ∧
      d.tables t = (d.tables s).map fun table =>
        if StoredRun.fits table.layout then
          { table with
            rows := table.rows ++ [(RunRecord.of f r createdAt).stored (xs.length + 1)] }
        else table := by
  obtain ⟨t, createdAt, hinsert, htables⟩ := h.insert_row hs (.of f r)
  rw [RunRecord.nextNumber_rows] at hinsert htables
  rw [← RunRecord.run_of f r createdAt] at htables
  refine ⟨t, createdAt, hinsert, ?_, htables⟩
  have hlayout : ∀ row : StoredRun, (fun table : StoredTable => StoredRun.fits table.layout) ∘
      (fun table => if StoredRun.fits table.layout then { table with rows := table.rows ++ [row] }
        else table) = fun table => StoredRun.fits table.layout := by
    intro row
    funext table
    simp only [Function.comp_apply]
    split <;> rfl
  unfold rows? at hs ⊢
  rw [htables, List.find?_map, hlayout]
  cases hfind : (d.tables s).find? fun table => StoredRun.fits table.layout with
  | none =>
      rw [hfind] at hs
      cases hs
  | some table =>
      rw [hfind] at hs
      have hfits : StoredRun.fits table.layout = true :=
        List.find?_some (p := fun table : StoredTable => StoredRun.fits table.layout) hfind
      have hrows : table.rows = RunRecord.rows xs := Option.some.inj hs
      simp only [Option.map_some, hfits, if_true, hrows, RunRecord.rows_concat]
      rfl

theorem count_record (hs : d.rows? s = some (RunRecord.rows xs)) : d.count s = some xs.length := by
  rw [h.count_rows, hs, Option.map_some, RunRecord.length_rows]

/-- A run is looked for by its place among all runs. -/
theorem find_record (hs : d.rows? s = some (RunRecord.rows xs)) {number : Nat} (hleast : 1 ≤ number)
    (hlimit : number < numberLimit) :
    d.find s number = some (xs[number - 1]?.map (·.stored number)) := by
  rw [h.find_row s hlimit, hs, Option.map_some, RunRecord.find?_rows xs hleast]

theorem page_records (hs : d.rows? s = some (RunRecord.rows xs)) {limit offset : Nat}
    (hlimit : limit < numberLimit) (hoffset : offset < numberLimit) :
    d.page s limit offset =
      some ((RunRecord.window limit offset xs).map fun x => x.1.stored x.2) := by
  rw [h.page_rows s limit hlimit hoffset, hs, Option.map_some, RunRecord.page_rows]

end Database.Lawful

end SampleSchema
