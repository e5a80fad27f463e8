import SampleSchema.Proofs.SampleRequests

/-!
# The history of stored runs

Requests to a database that is made for stored runs do to its runs, one after the other, what they do to
a list that starts empty (`Service.serve_refines_history`).

* A run of the service is many of its steps (`Service.history_serve`).  The runs stay
  (`Service.History.isPrefix`), and each was stored for a request (`Service.History.exists_stores`).
* A submission that is answered with a number is found under this number ever after, if its run can be
  shown (`Service.found_again`).
* Whether a run is stored changes nothing of the answer but its number (`Service.alike_of_persist`).
* `Service.not_serve_refines_history`: a submission is answered with a number under which its run is
  not shown.
-/

namespace SampleSchema.Service

/-- The answers to requests that come one after the other, and the database after them. -/
def serve (p : Packages) (db : p.database.State) : List Request → List Response × p.database.State
  | []      => ([], db)
  | r :: rs =>
    let here := handle p db r
    let rest := serve p here.2 rs
    (here.1 :: rest.1, rest.2)

/-- What requests and their answers do to a list of runs. -/
inductive History (p : Packages) :
    List RunRecord → List Request → List Response → List RunRecord → Prop where
  | done (xs : List RunRecord) : History p xs [] [] xs
  | next {xs ys zs : List RunRecord} {r : Request} {rs : List Request} {response : Response}
      {responses : List Response} (h : Follows p xs r response ys) (t : History p ys rs responses zs) :
      History p xs (r :: rs) (response :: responses) zs

section
variable {p : Packages} {xs ys : List RunRecord} {r : Request} {rs : List Request}
  {response : Response} {responses : List Response}

/-- A request takes no run away. -/
theorem Follows.isPrefix (h : Follows p xs r response ys) : xs <+: ys := by
  by_cases hstores : ∃ s report, Stores p r s report
  · obtain ⟨s, report, hstores⟩ := hstores
    obtain ⟨createdAt, rfl, -⟩ := h.stored hstores
    exact List.prefix_append _ _
  · obtain rfl := h.kept fun s report hs => hstores ⟨s, report, hs⟩
    exact List.prefix_rfl

/-- Requests take no run away. -/
theorem History.isPrefix (h : History p xs rs responses ys) : xs <+: ys := by
  induction h with
  | done => exact List.prefix_refl _
  | next h _ ih => exact h.isPrefix.trans ih

/-- Every run is one from before or has been stored for a request. -/
theorem History.exists_stores (h : History p xs rs responses ys) : ∀ run ∈ ys, run ∈ xs ∨
    ∃ r ∈ rs, ∃ s report, Stores p r s report ∧ run.run = .of s.format report := by
  induction h with
  | done => exact fun run => .inl
  | @next _ mid _ r rs _ _ hstep _ ih =>
      intro run hrun
      obtain hmid | ⟨r', hr', hstores⟩ := ih run hrun
      · by_cases hstores : ∃ s report, Stores p r s report
        · obtain ⟨s, report, hstores⟩ := hstores
          obtain ⟨createdAt, rfl, -⟩ := hstep.stored hstores
          obtain hold | hnew := List.mem_append.mp hmid
          · exact .inl hold
          · obtain rfl := List.mem_singleton.mp hnew
            exact .inr ⟨r, List.mem_cons_self, s, report, hstores, RunRecord.run_of _ _ _⟩
        · rw [hstep.kept fun s report hs => hstores ⟨s, report, hs⟩] at hmid
          exact .inl hmid
      · exact .inr ⟨r', List.mem_cons_of_mem r hr', hstores⟩

/-- A number that a database can be asked for does not have too many digits for an address. -/
theorem length_repr_of_lt {number : Nat} (h : number < Database.numberLimit) :
    (Nat.repr number).length ≤ maxNumberDigits := by
  have hdigits : (Nat.toDigits 10 number).length ≤ 19 :=
    (Nat.length_toDigits_le_iff (by decide) (by decide)).mpr (Nat.lt_of_lt_of_le h (by decide))
  rw [Nat.repr_eq_ofList_toDigits, String.length_ofList]
  exact Nat.le_trans hdigits (by decide)

section
variable (hp : p.Lawful) {db : p.database.State}
include hp

/-- A run of the service is many steps of the list. -/
theorem history_serve : ∀ (rs : List Request) {db : p.database.State} {xs : List RunRecord},
    p.database.rows? db = some (RunRecord.rows xs) → ∃ ys,
      p.database.rows? (serve p db rs).2 = some (RunRecord.rows ys) ∧
        History p xs rs (serve p db rs).1 ys
  | [], db, xs, hdb      => ⟨xs, hdb, .done xs⟩
  | r :: rs, db, xs, hdb => by
      obtain ⟨ys, hys, hstep⟩ := follows_handle hp hdb r
      obtain ⟨zs, hzs, hrest⟩ := history_serve rs hys
      exact ⟨zs, hzs, .next hstep hrest⟩

/-! ### Reading -/

variable (hdb : p.database.rows? db = some (RunRecord.rows xs))
include hdb

/-- The answer to a request for the run of a number. -/
theorem handle_runRequest {number : Nat} (hleast : 1 ≤ number)
    (hlimit : number < Database.numberLimit) :
    (handle p db (runRequest number)).1 = match xs[number - 1]? with
      | none     => unknownRun number
      | some run => if p.writer.shows run.run then answer (run.shown number) else failed := by
  have hcall := hp.framework.runRequest number hleast (length_repr_of_lt hlimit)
  rw [handle, hcall]
  exact lookUp_eq hp hdb hleast hlimit

/-- The answer to a request for a page. -/
theorem handle_pageRequest {limit offset : Nat} (hleast : 1 ≤ limit) (hgreatest : limit ≤ maxPage)
    (hoffset : offset < Database.numberLimit) :
    (handle p db (pageRequest limit offset)).1 =
      if (RunRecord.window limit offset xs).all (p.writer.shows ·.1.run) then
        pageAnswer limit offset xs else failed := by
  have hcall := hp.framework.pageRequest limit offset hleast hgreatest (length_repr_of_lt hoffset)
  rw [handle, hcall]
  exact list_eq hp hdb (Nat.lt_of_le_of_lt hgreatest (by decide)) hoffset

/-- A submission that is answered with the number of its run is found under this number after any other
requests, if the run can be shown. -/
theorem found_again {s : Submission} {report : Report} (h : Stores p r s report)
    (hwrites : p.writer.writes report = true) (hlimit : xs.length + 1 < Database.numberLimit) :
    ∃ run : RunRecord, run.run = .of s.format report ∧
      (handle p db r).1 = answer (run.posted (some (xs.length + 1))) ∧
      ∀ rs, (handle p (serve p (handle p db r).2 rs).2 (runRequest (xs.length + 1))).1 =
        if p.writer.shows run.run then answer (run.shown (xs.length + 1)) else failed := by
  obtain ⟨after, createdAt, hhandle, hafter⟩ := h.exists_record hp hdb
  refine ⟨.of s.format report createdAt, RunRecord.run_of _ _ _, ?_, fun rs => ?_⟩
  · rw [hhandle, if_pos hwrites]
  · obtain ⟨ys, hys, hhistory⟩ := history_serve hp rs hafter
    obtain ⟨later, rfl⟩ := hhistory.isPrefix
    rw [hhandle, handle_runRequest hp hys (Nat.le_add_left 1 _) hlimit]
    simp

end

/-! ### Storing a run or not -/

/-- Two answers that are the same but for the number of a run. -/
inductive Alike : Response → Response → Prop where
  | same (response : Response) : Alike response response
  | report (run : RunRecord) (number : Nat) :
      Alike (answer (run.posted (some number))) (answer (run.posted none))

/-- Whether a run is stored changes nothing of the answer but its number. -/
theorem alike_of_persist (hp : p.Lawful) {db : p.database.State}
    (hdb : p.database.rows? db = some (RunRecord.rows xs)) {r' : Request} {s : Submission}
    (h : p.framework.dispatch r = .infer s) (hpersist : s.persist = true)
    (h' : p.framework.dispatch r' = .infer { s with persist := false }) :
    Alike (handle p db r).1 (handle p db r').1 := by
  rw [handle_of_infer h']
  cases hreport : s.report p.reading {} with
  | error e =>
      have hreport' : ({ s with persist := false } : Submission).report p.reading {} = .error e :=
        hreport
      rw [handle_of_infer h, submit_of_error hreport, submit_of_error hreport']
      exact .same _
  | ok report =>
      have hreport' : ({ s with persist := false } : Submission).report p.reading {} = .ok report :=
        hreport
      rw [submit_of_not_persist hreport' rfl]
      cases hdumps : p.writer.dumps report with
      | false =>
          have hwrites : ¬ p.writer.writes report = true := fun hwrites =>
            Bool.false_ne_true (hdumps.symm.trans (hp.writer.dumps_of_writes hwrites))
          rw [handle_of_infer h, submit_of_not_dumps hreport hpersist hdumps, reported, if_neg hwrites]
          exact .same _
      | true =>
          obtain ⟨after, createdAt, hhandle, -⟩ :=
            Stores.exists_record hp hdb ⟨h, hpersist, hreport, hdumps⟩
          have hreported := reported_eq hp s.format report createdAt none
          rw [← runId_of_report hreport] at hreported
          rw [hhandle, hreported, runId_of_report hreport]
          split
          · exact .report _ _
          · exact .same _

end

/-! ### All requests -/

/-- Requests to a database that is made for stored runs, whatever they are and in whatever order, do to
the runs what they do to a list that starts empty, and are answered as by that list.  After them a run
is found exactly under its number, and pages are windows on the list; of such a list the pages of one
size show every run once, the newest first.  Whether a run is stored changes nothing of its answer but
its number. -/
theorem serve_refines_history {p : Packages} (hp : p.Lawful) (rs : List Request) :
    ∃ xs, p.database.rows? (serve p p.database.created rs).2 = some (RunRecord.rows xs) ∧
      History p [] rs (serve p p.database.created rs).1 xs ∧
      (∀ number, 1 ≤ number → number < Database.numberLimit →
        (handle p (serve p p.database.created rs).2 (runRequest number)).1 =
          match xs[number - 1]? with
          | none     => unknownRun number
          | some run => if p.writer.shows run.run then answer (run.shown number) else failed) ∧
      (∀ limit offset, 1 ≤ limit → limit ≤ maxPage → offset < Database.numberLimit →
        (handle p (serve p p.database.created rs).2 (pageRequest limit offset)).1 =
          if (RunRecord.window limit offset xs).all (p.writer.shows ·.1.run) then
            pageAnswer limit offset xs else failed) ∧
      (∀ limit pages : Nat, xs.length ≤ pages * limit →
        (List.range pages).flatMap (fun p => RunRecord.window limit (p * limit) xs) =
          RunRecord.newest xs) ∧
      ∀ r r' s, p.framework.dispatch r = .infer s → s.persist = true →
        p.framework.dispatch r' = .infer { s with persist := false } →
          Alike (handle p (serve p p.database.created rs).2 r).1
            (handle p (serve p p.database.created rs).2 r').1 := by
  obtain ⟨xs, hxs, hhistory⟩ := history_serve hp rs hp.database.rows?_created
  refine ⟨xs, hxs, hhistory, fun number => handle_runRequest hp hxs,
    fun limit offset => handle_pageRequest hp hxs, fun limit pages hsize => ?_,
    fun r r' s => alike_of_persist hp hxs⟩
  rw [RunRecord.flatMap_window, RunRecord.window_of_length_le hsize]

/-- A run of one truth value is answered with the number 1, found under it and listed on a page, and
there is no other run. -/
theorem serve_refines_history_of_false : ∃ run : RunRecord,
    run.run = .of .json (falseReport none) ∧
    (serve .standard Packages.standard.database.created [samplesRequest writtenFalse none]).1 =
      [answer (run.posted (some 1))] ∧
    (handle .standard (serve .standard Packages.standard.database.created
      [samplesRequest writtenFalse none]).2 (runRequest 1)).1 = answer (run.shown 1) ∧
    (handle .standard (serve .standard Packages.standard.database.created
      [samplesRequest writtenFalse none]).2 (runRequest 2)).1 = unknownRun 2 ∧
    (handle .standard (serve .standard Packages.standard.database.created
      [samplesRequest writtenFalse none]).2 (pageRequest 5 0)).1 = pageAnswer 5 0 [run] := by
  obtain ⟨xs, -, hhistory, hrun, hpage, -⟩ :=
    serve_refines_history Packages.lawful_standard [samplesRequest writtenFalse none]
  have hlimit : 2 < Database.numberLimit := by decide
  cases hhistory with
  | next hstep hrest =>
      obtain ⟨createdAt, hrecord, hanswer⟩ :=
        hstep.stored (stores_false fun n hn => absurd hn (Option.not_mem_none n))
      rw [writes_falseReport, if_pos rfl] at hanswer
      cases hrest
      subst hrecord
      have hshows : Packages.standard.writer.shows
          (RunRecord.of .json (falseReport none) createdAt).run = true := by
        rw [RunRecord.run_of, shows_falseReport]
      refine ⟨_, RunRecord.run_of _ _ createdAt, congrArg (List.cons · []) hanswer, ?_, ?_, ?_⟩
      · refine (hrun 1 (Nat.le_refl 1) (Nat.lt_of_succ_lt hlimit)).trans ?_
        exact if_pos hshows
      · exact hrun 2 (by decide) hlimit
      · refine (hpage 5 0 (by decide) (by decide) (Nat.lt_trans Nat.two_pos hlimit)).trans ?_
        refine if_pos (List.all_eq_true.mpr fun x hx => ?_)
        obtain rfl := List.mem_singleton.mp hx
        exact hshows

/-- A submission is answered with the number 1, under which its run is there and is not shown. -/
theorem not_serve_refines_history : ∃ run : RunRecord,
    (serve .standard Packages.standard.database.created [deepPairs]).1 =
      [answer (run.posted (some 1))] ∧
    Packages.standard.database.rows?
      (serve .standard Packages.standard.database.created [deepPairs]).2 = some [run.stored 1] ∧
    (handle .standard (serve .standard Packages.standard.database.created [deepPairs]).2
      (runRequest 1)).1 = failed := by
  obtain ⟨s, report, hstores, hwrites, hshows⟩ := stores_deepPairs
  obtain ⟨xs, hxs, hhistory⟩ := history_serve Packages.lawful_standard [deepPairs]
    Packages.lawful_standard.database.rows?_created
  cases hhistory with
  | next hstep hrest =>
      obtain ⟨createdAt, hrecord, hanswer⟩ := hstep.stored hstores
      rw [hwrites, if_pos rfl] at hanswer
      cases hrest
      subst hrecord
      refine ⟨_, congrArg (List.cons · []) hanswer, hxs, ?_⟩
      have hlimit : 1 < Database.numberLimit := by decide
      refine (handle_runRequest Packages.lawful_standard hxs (Nat.le_refl 1) hlimit).trans ?_
      have hhidden : ¬ Packages.standard.writer.shows
          (RunRecord.of s.format report createdAt).run = true := by
        rw [RunRecord.run_of, hshows]
        exact Bool.false_ne_true
      exact if_neg hhidden

end SampleSchema.Service
