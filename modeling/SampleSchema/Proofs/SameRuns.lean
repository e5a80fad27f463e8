import SampleSchema.Proofs.RunHistory

/-!
# Databases with the same runs

Two databases may hold the same runs, stored at different times.  Requests are answered alike by both,
but for the times (`Service.SameButTimes`), and leave them with the same runs
(`Service.sameButTimes_handle`).  What stores no run is answered without a look at the database
(`Service.handle_infer_of_not_stores`).
-/

namespace SampleSchema.Service

/-- Whether two answers are the same but for the times when runs were stored. -/
inductive SameButTimes : Response → Response → Prop where
  | same (response : Response) : SameButTimes response response
  | run {x y : RunRecord} (h : x.run = y.run) (number : Nat) :
      SameButTimes (answer (x.shown number)) (answer (y.shown number))
  | page {xs ys : List RunRecord} (h : xs.map RunRecord.run = ys.map RunRecord.run)
      (limit offset : Nat) : SameButTimes (pageAnswer limit offset xs) (pageAnswer limit offset ys)

/-- What a page shows, but for the times, depends on what is stored of the runs. -/
theorem all_window_congr {xs ys : List RunRecord} (h : xs.map RunRecord.run = ys.map RunRecord.run)
    (shows : Run → Bool) (limit offset : Nat) :
    (RunRecord.window limit offset xs).all (shows ·.1.run) =
      (RunRecord.window limit offset ys).all (shows ·.1.run) := by
  have hwindow : ∀ xs : List RunRecord, (RunRecord.window limit offset xs).map (·.1.run) =
      (((xs.map RunRecord.run).reverse.drop offset).take limit) := by
    intro xs
    have hfst : (RunRecord.newest xs).map Prod.fst = xs.reverse := by
      rw [RunRecord.newest, List.map_reverse, List.zipIdx_map_fst]
    rw [← List.map_reverse, ← hfst, List.map_map, ← List.map_drop, ← List.map_take]
    rfl
  have hall : ∀ xs : List RunRecord, (RunRecord.window limit offset xs).all (shows ·.1.run) =
      ((RunRecord.window limit offset xs).map (·.1.run)).all shows := fun xs => List.all_map.symm
  rw [hall, hall, hwindow, hwindow, h]

section
variable {p : Packages} {r : Request}

/-- A submission that stores no run is answered without the database. -/
theorem handle_infer_of_not_stores {s : Submission} (hcall : p.framework.dispatch r = .infer s)
    (h : ∀ report, ¬ Stores p r s report) (db db' : p.database.State) :
    (handle p db r).1 = (handle p db' r).1 := by
  rw [handle_of_infer hcall, handle_of_infer hcall]
  cases hreport : s.report p.reading {} with
  | error e => rw [submit_of_error hreport, submit_of_error hreport]
  | ok report =>
      cases hpersist : s.persist with
      | false => rw [submit_of_not_persist hreport hpersist, submit_of_not_persist hreport hpersist]
      | true =>
          have hdumps : p.writer.dumps report = false :=
            Bool.eq_false_iff.mpr fun hdumps => h report ⟨hcall, hpersist, hreport, hdumps⟩
          rw [submit_of_not_dumps hreport hpersist hdumps,
            submit_of_not_dumps hreport hpersist hdumps]

variable (hp : p.Lawful) {db db' : p.database.State} {xs ys : List RunRecord}
  (hdb : p.database.rows? db = some (RunRecord.rows xs))
  (hdb' : p.database.rows? db' = some (RunRecord.rows ys))
  (hruns : xs.map RunRecord.run = ys.map RunRecord.run)
include hp hdb hdb' hruns

theorem sameButTimes_lookUp {number : Nat} (hleast : 1 ≤ number) :
    SameButTimes (lookUp p db number) (lookUp p db' number) := by
  by_cases hlimit : number < Database.numberLimit
  · have hrun : xs[number - 1]?.map RunRecord.run = ys[number - 1]?.map RunRecord.run := by
      rw [← List.getElem?_map, ← List.getElem?_map, hruns]
    rw [lookUp_eq hp hdb hleast hlimit, lookUp_eq hp hdb' hleast hlimit]
    cases hx : xs[number - 1]? with
    | none =>
        rw [hx] at hrun
        rw [Option.map_eq_none_iff.mp hrun.symm]
        exact .same _
    | some x =>
        rw [hx] at hrun
        obtain ⟨y, hy, hxy⟩ := Option.map_eq_some_iff.mp hrun.symm
        rw [hy]
        simp only [hxy]
        split
        · exact .run hxy.symm number
        · exact .same _
  · rw [lookUp_of_limit hp db (Nat.le_of_not_lt hlimit),
      lookUp_of_limit hp db' (Nat.le_of_not_lt hlimit)]
    exact .same _

theorem sameButTimes_list {limit offset : Nat} (hlimit : limit < Database.numberLimit) :
    SameButTimes (list p db limit offset) (list p db' limit offset) := by
  by_cases hoffset : offset < Database.numberLimit
  · rw [list_eq hp hdb hlimit hoffset, list_eq hp hdb' hlimit hoffset,
      all_window_congr hruns p.writer.shows limit offset]
    split
    · exact .page hruns limit offset
    · exact .same _
  · rw [list_of_limit hp db limit (Nat.le_of_not_lt hoffset),
      list_of_limit hp db' limit (Nat.le_of_not_lt hoffset)]
    exact .same _

/-- Databases with the same runs answer a request alike, but for the times, and have the same runs after
it. -/
theorem sameButTimes_handle (r : Request) :
    SameButTimes (handle p db r).1 (handle p db' r).1 ∧ ∃ xs' ys',
      p.database.rows? (handle p db r).2 = some (RunRecord.rows xs') ∧
      p.database.rows? (handle p db' r).2 = some (RunRecord.rows ys') ∧
      xs'.map RunRecord.run = ys'.map RunRecord.run := by
  by_cases hstores : ∃ s report, Stores p r s report
  · obtain ⟨s, report, h⟩ := hstores
    obtain ⟨after, createdAt, hhandle, hafter⟩ := h.exists_record hp hdb
    obtain ⟨after', createdAt', hhandle', hafter'⟩ := h.exists_record hp hdb'
    have hlength : xs.length = ys.length := by
      simpa using congrArg List.length hruns
    rw [hhandle, hhandle']
    refine ⟨?_, _, _, hafter, hafter', ?_⟩
    · rw [hlength]
      exact .same _
    · rw [List.map_append, List.map_append, hruns]
      rfl
  · have hnone : ∀ s report, ¬ Stores p r s report := fun s report h => hstores ⟨s, report, h⟩
    refine ⟨?_, xs, ys, ?_, ?_, hruns⟩
    · cases hcall : p.framework.dispatch r with
      | infer s =>
          rw [handle_infer_of_not_stores hcall (hnone s) db db']
          exact .same _
      | run number =>
          rw [handle, handle, hcall]
          exact sameButTimes_lookUp hp hdb hdb' hruns (hp.framework.run_bounds hcall)
      | page limit offset =>
          rw [handle, handle, hcall]
          exact sameButTimes_list hp hdb hdb' hruns
            (Nat.lt_of_le_of_lt (hp.framework.page_bounds hcall).2 (by decide))
      | health | answered response =>
          rw [handle, handle, hcall]
          exact .same _
    · rw [(handle_of_not_stores hnone).1, hdb]
    · rw [(handle_of_not_stores hnone).1, hdb']

end

end SampleSchema.Service
