import SampleSchema.Proofs.RunHistory

/-!
# Requests to read

Whatever requests a database has seen, a run is found under its number and no run under a greater one,
and a page shows the runs that it is asked for (`Service.answers_reads`).  The rules bound a number from
below only, and a database cannot be asked for one that is too large.  Such a request to read fails, and
so does one that meets a run that cannot be shown; no other one does (`Service.status_handle_iff`).

* `Service.failed_at_limit`: the first number that is too large, for a run and for a page, and a page
  with a run of too many levels.
-/

namespace SampleSchema.Service

/-- Why a request to read fails where the stored runs are those of `xs`. -/
inductive Unreadable (p : Packages) (xs : List RunRecord) (r : Request) : Prop where
  /-- The number of the run is too large. -/
  | number {number : Nat} (h : p.framework.dispatch r = .run number)
      (hlarge : Database.numberLimit ≤ number) : Unreadable p xs r
  /-- There are too many runs before the page. -/
  | offset {limit offset : Nat} (h : p.framework.dispatch r = .page limit offset)
      (hlarge : Database.numberLimit ≤ offset) : Unreadable p xs r
  /-- The run cannot be shown. -/
  | run {number : Nat} {run : RunRecord} (h : p.framework.dispatch r = .run number)
      (hrun : xs[number - 1]? = some run) (hhidden : p.writer.shows run.run = false) :
      Unreadable p xs r
  /-- A run of the page cannot be shown. -/
  | page {limit offset : Nat} {x : RunRecord × Nat} (h : p.framework.dispatch r = .page limit offset)
      (hx : x ∈ RunRecord.window limit offset xs) (hhidden : p.writer.shows x.1.run = false) :
      Unreadable p xs r

/-- Only requests for a run or a page are unreadable. -/
theorem Unreadable.dispatch_eq {p : Packages} {xs : List RunRecord} {r : Request}
    (h : Unreadable p xs r) : (∃ number, p.framework.dispatch r = .run number) ∨
      ∃ limit offset, p.framework.dispatch r = .page limit offset := by
  cases h with
  | number h | run h => exact .inl ⟨_, h⟩
  | offset h | page h => exact .inr ⟨_, _, h⟩

section
variable {p : Packages} (hp : p.Lawful) {db : p.database.State} {xs : List RunRecord}
  (hdb : p.database.rows? db = some (RunRecord.rows xs)) {r : Request}
include hp

/-- A request to read changes nothing. -/
theorem unchanged_of_get (hget : r.method = "GET") : (handle p db r).2 = db := by
  refine (handle_of_not_stores fun s report h => ?_).1
  exact absurd (hget.symm.trans (hp.framework.infer_method h.call)) (by decide)

include hdb

/-- If it fails to look a run up, the number is too large or the run cannot be shown. -/
theorem status_lookUp_iff {number : Nat} (h : p.framework.dispatch r = .run number) :
    (lookUp p db number).status = 500 ↔ Unreadable p xs r := by
  have hleast : 1 ≤ number := hp.framework.run_bounds h
  constructor
  · intro hstatus
    by_cases hlimit : number < Database.numberLimit
    · rw [lookUp_eq hp hdb hleast hlimit] at hstatus
      split at hstatus
      · cases hstatus
      · rename_i run hrun
        split at hstatus
        · cases hstatus
        · exact .run h hrun (Bool.eq_false_iff.mpr ‹_›)
    · exact .number h (Nat.le_of_not_lt hlimit)
  · intro hunreadable
    by_cases hlimit : number < Database.numberLimit
    · rw [lookUp_eq hp hdb hleast hlimit]
      cases hunreadable with
      | number h' hlarge =>
          cases h.symm.trans h'
          exact absurd hlimit (Nat.not_lt.mpr hlarge)
      | run h' hrun hhidden =>
          cases h.symm.trans h'
          simp only [hrun, hhidden, Bool.false_eq_true, if_false, failed]
      | offset h' | page h' => cases h.symm.trans h'
    · rw [lookUp_of_limit hp db (Nat.le_of_not_lt hlimit)]
      rfl

/-- If it fails to list a page, there are too many runs before it or one of its runs cannot be shown. -/
theorem status_list_iff {limit offset : Nat} (h : p.framework.dispatch r = .page limit offset) :
    (list p db limit offset).status = 500 ↔ Unreadable p xs r := by
  have hlimit : limit < Database.numberLimit :=
    Nat.lt_of_le_of_lt (hp.framework.page_bounds h).2 (by decide)
  constructor
  · intro hstatus
    by_cases hoffset : offset < Database.numberLimit
    · rw [list_eq hp hdb hlimit hoffset] at hstatus
      split at hstatus
      · cases hstatus
      · rename_i hhidden
        obtain ⟨x, hx, hhidden⟩ := List.all_eq_false.mp (Bool.eq_false_iff.mpr hhidden)
        exact .page h hx (Bool.eq_false_iff.mpr hhidden)
    · exact .offset h (Nat.le_of_not_lt hoffset)
  · intro hunreadable
    by_cases hoffset : offset < Database.numberLimit
    · rw [list_eq hp hdb hlimit hoffset]
      cases hunreadable with
      | offset h' hlarge =>
          cases h.symm.trans h'
          exact absurd hoffset (Nat.not_lt.mpr hlarge)
      | page h' hx hhidden =>
          cases h.symm.trans h'
          have hall : (RunRecord.window limit offset xs).all (p.writer.shows ·.1.run) = false :=
            List.all_eq_false.mpr ⟨_, hx, Bool.eq_false_iff.mp hhidden⟩
          simp only [hall, Bool.false_eq_true, if_false, failed]
      | number h' | run h' => cases h.symm.trans h'
    · rw [list_of_limit hp db limit (Nat.le_of_not_lt hoffset)]
      rfl

/-- Of the requests to read, those fail that are unreadable. -/
theorem status_handle_iff (hget : r.method = "GET") :
    (handle p db r).1.status = 500 ↔ Unreadable p xs r := by
  cases hcall : p.framework.dispatch r with
  | infer s => exact absurd (hget.symm.trans (hp.framework.infer_method hcall)) (by decide)
  | run number =>
      rw [handle, hcall]
      exact status_lookUp_iff hp hdb hcall
  | page limit offset =>
      rw [handle, hcall]
      exact status_list_iff hp hdb hcall
  | health =>
      refine iff_of_false ?_ fun h => ?_
      · rw [handle, hcall, visit]
        show ¬ 200 = 500
        decide
      · rcases h.dispatch_eq with ⟨number, h⟩ | ⟨limit, offset, h⟩ <;> cases hcall.symm.trans h
  | answered response =>
      refine iff_of_false ?_ fun h => ?_
      · rw [handle, hcall, visit]
        exact hp.framework.get_answered hget hcall
      · rcases h.dispatch_eq with ⟨number, h⟩ | ⟨limit, offset, h⟩ <;> cases hcall.symm.trans h

end

/-- How a database with the runs of `xs` answers the requests to read. -/
structure AnswersReads (p : Packages) (db : p.database.State) (xs : List RunRecord) : Prop where
  /-- None of them changes it. -/
  unchanged : ∀ r : Request, r.method = "GET" → (handle p db r).2 = db
  /-- A run is found under its number, if it can be shown. -/
  found : ∀ number run, 1 ≤ number → number < Database.numberLimit → xs[number - 1]? = some run →
    p.writer.shows run.run = true →
    (handle p db (runRequest number)).1 = answer (run.shown number)
  /-- No run is found under a number past that of the last run. -/
  unknown : ∀ number, xs.length < number → number < Database.numberLimit →
    (handle p db (runRequest number)).1 =
      ⟨404, .reason ("Inference run " ++ Nat.repr number ++ " not found")⟩
  /-- A page shows the runs that it is asked for, if they can be shown. -/
  page : ∀ limit offset, 1 ≤ limit → limit ≤ maxPage → offset < Database.numberLimit →
    (∀ x ∈ RunRecord.window limit offset xs, p.writer.shows x.1.run = true) →
    (handle p db (pageRequest limit offset)).1 = pageAnswer limit offset xs
  /-- Past the last run there are none. -/
  past : ∀ limit offset, 1 ≤ limit → limit ≤ maxPage → offset < Database.numberLimit →
    xs.length ≤ offset → (handle p db (pageRequest limit offset)).1 = ⟨200, .value (.object
      [("data", .array []), ("meta", .object [("total", .int xs.length), ("limit", .int limit),
        ("offset", .int offset)])])⟩
  /-- A number that is too large fails, be it that of a run or of the runs before a page. -/
  tooLarge : ∀ number, Database.numberLimit ≤ number → (Nat.repr number).length ≤ maxNumberDigits →
    (handle p db (runRequest number)).1 = failed ∧
      ∀ limit, 1 ≤ limit → limit ≤ maxPage →
        (handle p db (pageRequest limit number)).1 = failed
  /-- A number with too many digits breaks a rule. -/
  tooLong : ∀ number, maxNumberDigits < (Nat.repr number).length →
    (handle p db (runRequest number)).1.status = 422 ∧
      ∀ limit, 1 ≤ limit → limit ≤ maxPage →
        (handle p db (pageRequest limit number)).1.status = 422
  /-- Nothing else fails. -/
  fails : ∀ r : Request, r.method = "GET" →
    ((handle p db r).1.status = 500 ↔ Unreadable p xs r)

theorem answersReads {p : Packages} (hp : p.Lawful) {db : p.database.State} {xs : List RunRecord}
    (hdb : p.database.rows? db = some (RunRecord.rows xs)) : AnswersReads p db xs where
  unchanged _ hget := unchanged_of_get hp hget
  found number run hleast hlimit hrun hshows := by
    rw [handle_runRequest hp hdb hleast hlimit, hrun]
    exact if_pos hshows
  unknown number hlast hlimit := by
    rw [handle_runRequest hp hdb (Nat.le_trans (Nat.le_add_left 1 _) hlast) hlimit,
      List.getElem?_eq_none (by omega)]
    rfl
  page limit offset hleast hgreatest hoffset hshows := by
    rw [handle_pageRequest hp hdb hleast hgreatest hoffset]
    exact if_pos (List.all_eq_true.mpr hshows)
  past limit offset hleast hgreatest hoffset hpast := by
    rw [handle_pageRequest hp hdb hleast hgreatest hoffset, pageAnswer,
      RunRecord.window_of_le_offset limit hpast]
    rfl
  tooLarge number hlarge hdigits := by
    have hleast : 1 ≤ number := Nat.le_trans (by decide : 1 ≤ Database.numberLimit) hlarge
    refine ⟨?_, fun limit hlimit hgreatest => ?_⟩
    · rw [handle, hp.framework.runRequest number hleast hdigits]
      exact lookUp_of_limit hp db hlarge
    · rw [handle, hp.framework.pageRequest limit number hlimit hgreatest hdigits]
      exact list_of_limit hp db limit hlarge
  tooLong number hdigits := by
    refine ⟨?_, fun limit hlimit hgreatest => ?_⟩
    · obtain ⟨content, hcall⟩ := hp.framework.longNumber number hdigits
      rw [handle, hcall]
      rfl
    · obtain ⟨content, hcall⟩ := hp.framework.longOffset limit number hlimit hgreatest hdigits
      rw [handle, hcall]
      rfl
  fails _ hget := status_handle_iff hp hdb hget

/-- **A request to read is answered unless its number is too large or a run cannot be shown.**  Whatever
requests reach a database that is made for stored runs, after them a run is found under its number and
no run under a greater one, and a page shows the runs that it is asked for, of which there are none past
the last one.  The requests to read that fail are those with a number that keeps to the rules but is too
large for the database, and those that meet a run that cannot be shown. -/
theorem answers_reads {p : Packages} (hp : p.Lawful) (rs : List Request) :
    ∃ xs, p.database.rows? (serve p p.database.created rs).2 = some (RunRecord.rows xs) ∧
      AnswersReads p (serve p p.database.created rs).2 xs := by
  obtain ⟨xs, hxs, -⟩ := history_serve hp rs hp.database.rows?_created
  exact ⟨xs, hxs, answersReads hp hxs⟩

/-- A run that is stored is found, the greatest number that a database can be asked for has none, and the
page after so many runs is empty. -/
theorem answers_reads_below_limit :
    (handle .standard (serve .standard Packages.standard.database.created
      [samplesRequest writtenFalse none]).2 (runRequest 1)).1.status = 200 ∧
    (handle .standard (serve .standard Packages.standard.database.created
      [samplesRequest writtenFalse none]).2 (runRequest 9223372036854775807)).1.status = 404 ∧
    (handle .standard (serve .standard Packages.standard.database.created
      [samplesRequest writtenFalse none]).2 (pageRequest 1 9223372036854775807)).1.status = 200 := by
  obtain ⟨xs, hxs, hreads⟩ := answers_reads Packages.lawful_standard [samplesRequest writtenFalse none]
  obtain ⟨run, hrun, hrows⟩ : ∃ run : RunRecord, run.run = .of .json (falseReport none) ∧
      Packages.standard.database.rows? (serve .standard Packages.standard.database.created
        [samplesRequest writtenFalse none]).2 = some (RunRecord.rows [run]) := by
    obtain ⟨after, createdAt, hhandle, hafter⟩ :=
      (stores_false fun n hn => absurd hn (Option.not_mem_none n)).exists_record
        Packages.lawful_standard Packages.lawful_standard.database.rows?_created
    refine ⟨.of .json (falseReport none) createdAt, RunRecord.run_of _ _ _, ?_⟩
    rw [serve, hhandle]
    exact hafter
  have hsame : RunRecord.rows xs = RunRecord.rows [run] := Option.some.inj (hxs.symm.trans hrows)
  obtain ⟨x, rfl⟩ : ∃ x, xs = [x] := by
    rw [← List.length_eq_one_iff, ← RunRecord.length_rows, hsame]
    rfl
  have hrun : x.run = .of .json (falseReport none) :=
    (congrArg StoredRun.toRun (List.cons.inj hsame).1).trans hrun
  have hlast : [x].length < 9223372036854775807 := (by decide : 1 < 9223372036854775807)
  refine ⟨?_, ?_, ?_⟩
  · have hshows : Packages.standard.writer.shows x.run = true := by rw [hrun, shows_falseReport]
    rw [hreads.found 1 x (Nat.le_refl 1) (by decide) rfl hshows]
    rfl
  · rw [hreads.unknown 9223372036854775807 hlast (by decide)]
  · rw [hreads.past 1 9223372036854775807 (by decide) (by decide) (by decide) (Nat.le_of_lt hlast)]

/-- The first number that is too large keeps to the rules, as the number of a run and as that of the
runs before a page, and both requests fail.  So does the page with a run that is stored and answered but
cannot be shown. -/
theorem failed_at_limit :
    (handle .standard Packages.standard.database.created (runRequest 9223372036854775808)).1 = failed ∧
    (handle .standard Packages.standard.database.created
      (pageRequest 1 9223372036854775808)).1 = failed ∧
    (serve .standard Packages.standard.database.created [deepPairs, pageRequest 50 0]).1.map
      (·.status) = [200, 500] := by
  have hlimit : Database.numberLimit ≤ 9223372036854775808 := Nat.le_refl _
  have hdigits : (Nat.repr 9223372036854775808).length ≤ maxNumberDigits := by decide
  have hreads := answersReads Packages.lawful_standard
    Packages.lawful_standard.database.rows?_created
  obtain ⟨hrun, hpage⟩ := hreads.tooLarge _ hlimit hdigits
  refine ⟨hrun, hpage 1 (by decide) (by decide), ?_⟩
  obtain ⟨s, report, hstores, hwrites, hshows⟩ := stores_deepPairs
  obtain ⟨after, createdAt, hhandle, hafter⟩ := hstores.exists_record Packages.lawful_standard
    Packages.lawful_standard.database.rows?_created
  have hcall := Packages.lawful_standard.framework.pageRequest 50 0 (by decide) (by decide) (by decide)
  have hhidden : Packages.standard.writer.shows (RunRecord.of s.format report createdAt).run = false := by
    rw [RunRecord.run_of, hshows]
  have hfails : (handle .standard after (pageRequest 50 0)).1.status = 500 :=
    (status_handle_iff Packages.lawful_standard hafter rfl).mpr
      (.page hcall (List.mem_singleton_self (_, 1)) hhidden)
  rw [if_pos hwrites] at hhandle
  simp only [serve, hhandle, List.map_cons, List.map_nil, hfails]
  rfl

end SampleSchema.Service
