import SampleSchema.Proofs.Reachable

/-!
# What runs give

A run with usable options and a number of workers names the merge of its samples and fails only
where that fails (`Settings.run_eq`).  The merge is the summary of what the options observe in the
samples (`merged_eq_summary`), in parallel runs and in others, so the two give the same schema
(`parallel_agrees_with_sequential`).
-/

namespace SampleSchema
open Observation

/-- The options of a run. -/
def Settings.optionsFor (s : Settings) (r : RunRequest) : Except OptionsError Options :=
  match r.options with
  | some o => .ok o
  | none => s.options

/-- The result of a run with the given options, or the failure to name it. -/
theorem Settings.run_eq {s : Settings} {r : RunRequest} {o : Options}
    (ho : s.optionsFor r = .ok o) (samples : List Sample) :
    s.run r samples =
      if r.isParallel s samples.length && decide (1 < samples.length) &&
          decide (r.maxWorkers.getD 0 < 0) then .error (.workers (r.maxWorkers.getD 0))
      else
        match (o.inferMerged (r.isParallel s samples.length) samples).named
            (givenOr r.rootName s.rootTypeName) with
        | .error c => .error (.collision c)
        | .ok schema =>
          .ok ⟨schema, o.inferMerged (r.isParallel s samples.length) samples,
            o.inferConflicts (r.isParallel s samples.length) samples, samples.length⟩ := by
  rw [optionsFor] at ho
  simp only [run, bind, Except.bind, pure, Except.pure, throw, throwThe, MonadExceptOf.throw]
  cases hr : r.options with
  | some p =>
      rw [hr] at ho
      cases ho
      simp only
      cases (o.inferMerged _ samples).named (givenOr r.rootName s.rootTypeName) <;> rfl
  | none =>
      rw [hr] at ho
      have hs : s.options.mapError RunError.options = .ok o := by
        rw [show s.options = .ok o from ho]
        rfl
      simp only [hs]
      cases (o.inferMerged _ samples).named (givenOr r.rootName s.rootTypeName) <;> rfl

theorem Options.inferMerged_eq_summary (o : Options) (parallel : Bool) {samples : List Sample}
    (h : ∀ v ∈ samples, v.hasDistinctNames = true) :
    o.inferMerged parallel samples = summary (samples.map o.observe) := by
  -- each sample on its own is summarised first
  have hall : o.inferAll samples = (samples.map o.observe).map fun x => summary [x] := by
    rw [o.inferAll_eq_map, List.map_map]
    exact List.map_congr_left fun v hv => o.infer_eq_summary (h v hv)
  rw [inferMerged, hall]
  by_cases hs : samples.map o.observe = []
  · have he : summary [] = .null := by
      rw [summary, summaryWith_eq_assemble]
      rfl
    rw [hs, he]
    cases parallel
    · rfl
    · rw [List.map_nil, mergeTree]
      rfl
  · cases parallel
    · rw [if_neg Bool.false_ne_true, mergeAll_singletons hs, Option.getD_some]
    · rw [if_pos rfl, mergeTree_singletons hs, Option.getD_some]

/-- What a run merges are the schemas of its samples under its options. -/
theorem Settings.merged_of_run {s : Settings} {r : RunRequest} {o : Options}
    {samples : List Sample} {i : Inferred} (ho : s.optionsFor r = .ok o)
    (hi : s.run r samples = .ok i) :
    i.merged = o.inferMerged (r.isParallel s samples.length) samples := by
  rw [run_eq ho] at hi
  split at hi
  · cases hi
  · split at hi
    · cases hi
    · cases hi
      rfl

/-- A run that succeeds gives its merge a name. -/
theorem Settings.named_of_run {s : Settings} {r : RunRequest} {o : Options}
    {samples : List Sample} {i : Inferred} (ho : s.optionsFor r = .ok o)
    (hi : s.run r samples = .ok i) :
    i.merged.named (givenOr r.rootName s.rootTypeName) = .ok i.schema := by
  rw [run_eq ho] at hi
  split at hi
  · cases hi
  · split at hi
    · cases hi
    · rename_i hnamed
      cases hi
      exact hnamed

theorem run_array :
    ({} : Settings).run { options := some {} } [.array [.int 3]] =
      .ok ⟨⟨.array .int false, []⟩, .array .int false, [], 1⟩ := by
  rfl

/-- The only definition of the schema of an array of objects and another object of their structure. -/
def twiceItem : Definition := ⟨"RootItem", 1, [⟨"a", .int, false, 1, 1⟩]⟩

/-- What a run gives of an array with an object, and another object of its structure. -/
def twice : Inferred where
  schema      := ⟨.union [.array twiceItem.toSchema false, twiceItem.toSchema], [twiceItem]⟩
  merged      :=
    .union [.array (.object none 1 twiceItem.fields) false, .object none 1 twiceItem.fields]
  conflicts   := [⟨"", [.array, .object]⟩]
  sampleCount := 2

theorem run_twice : ({} : Settings).run {}
    [.array [.object [("a", .int 1)]], .object [("a", .int 1)]] = .ok twice := by
  with_unfolding_all rfl

/-- **What is merged is the summary.**  The merge of the samples of a run, parallel or not, is the
summary of what its options observe in them. -/
theorem merged_eq_summary (o : Options) {samples : List Sample}
    (h : ∀ v ∈ samples, v.hasDistinctNames = true) :
    (∀ parallel, o.inferMerged parallel samples = summary (samples.map o.observe)) ∧
      ∀ (s : Settings) (r : RunRequest) (i : Inferred), s.optionsFor r = .ok o →
        s.run r samples = .ok i → i.merged = summary (samples.map o.observe) := by
  refine ⟨fun parallel => o.inferMerged_eq_summary parallel h, fun s r i ho hi => ?_⟩
  rw [Settings.merged_of_run ho hi, o.inferMerged_eq_summary _ h]

theorem merged_eq_summary_of_mixed :
    ({} : Options).inferMerged true mixedSamples =
        summary (mixedSamples.map ({} : Options).observe) ∧
      Schema.array .int false = summary ([.array [.int 3]].map ({} : Options).observe) :=
  ⟨(merged_eq_summary {} (by decide)).1 true,
    (merged_eq_summary {} (by decide)).2 {} { options := some {} } _ rfl run_array⟩

/-! ### Parallel and sequential runs -/

/-- A run with given options, parallel or not, which may ask for a number of workers. -/
def Settings.runWith (s : Settings) (o : Options) (rootName : Option String)
    (workers : Option Nat) (parallel : Bool) (samples : List Sample) : Except RunError Inferred :=
  s.run
    { rootName   := rootName
      parallel   := some parallel
      maxWorkers := workers.map Int.ofNat
      options    := some o } samples

/-- Such a run fails only where the summary cannot be named. -/
theorem Settings.runWith_eq (s : Settings) (o : Options) (rootName : Option String)
    (workers : Option Nat) (parallel : Bool) {samples : List Sample}
    (h : ∀ v ∈ samples, v.hasDistinctNames = true) :
    s.runWith o rootName workers parallel samples =
      match (summary (samples.map o.observe)).named (givenOr rootName s.rootTypeName) with
      | .error c => .error (.collision c)
      | .ok schema =>
        .ok ⟨schema, summary (samples.map o.observe), o.inferConflicts parallel samples,
          samples.length⟩ := by
  -- a number of workers that is asked for is never negative
  have hw : decide ((workers.map Int.ofNat).getD 0 < 0) = false := by
    refine decide_eq_false (Int.not_lt.mpr ?_)
    cases workers with
    | none => exact Int.le_refl 0
    | some n => exact Int.natCast_nonneg n
  rw [runWith, run_eq rfl]
  simp only [hw, Bool.and_false, Bool.false_eq_true, if_false, RunRequest.isParallel,
    Option.getD_some, o.inferMerged_eq_summary _ h]

/-- **Parallel runs agree with sequential runs**: they give the same merge, the same named schema
and the same number of samples, or they fail to name the same object.  Below this, merging reachable
schemas in adjacent pairs gives what merging them from left to right gives. -/
theorem parallel_agrees_with_sequential (s : Settings) (o : Options) (rootName : Option String)
    (workers : Option Nat) {samples : List Sample}
    (h : ∀ v ∈ samples, v.hasDistinctNames = true) :
    ((∃ i j, s.runWith o rootName workers true samples = .ok i ∧
          s.runWith o rootName workers false samples = .ok j ∧
          i.merged = j.merged ∧ i.schema = j.schema ∧ i.sampleCount = j.sampleCount) ∨
        ∃ c, s.runWith o rootName workers true samples = .error (.collision c) ∧
          s.runWith o rootName workers false samples = .error (.collision c)) ∧
      ∀ ts : List Schema, ts ≠ [] → (∀ t ∈ ts, t.Reachable) →
        ∃ t, mergeTree ts = some t ∧ mergeAll ts = some t := by
  constructor
  · rw [s.runWith_eq o rootName workers true h, s.runWith_eq o rootName workers false h]
    cases (summary (samples.map o.observe)).named (givenOr rootName s.rootTypeName) with
    | error c => exact Or.inr ⟨c, rfl, rfl⟩
    | ok schema => exact Or.inl ⟨_, _, rfl, rfl, rfl, rfl, rfl⟩
  · -- both reductions give the summary of all values that the schemas were built from
    intro ts hne hts
    obtain ⟨xss, rfl, hxss⟩ := exists_summaries hts
    have hx : xss ≠ [] := fun e => hne (by rw [e]; rfl)
    exact ⟨_, mergeTree_summaries xss hx hxss, mergeAll_summaries xss hx hxss⟩

/-- Of five schemas the last is carried to the second level and to the third. -/
theorem parallel_agrees_with_sequential_of_mixed :
    mergeTree (({} : Options).inferAll mixedSamples) =
      mergeAll (({} : Options).inferAll mixedSamples) := by
  have hm : ∀ v ∈ mixedSamples, v.hasDistinctNames = true := by decide
  have hreach : ∀ t ∈ ({} : Options).inferAll mixedSamples, t.Reachable := by
    intro t ht
    rw [Options.inferAll_eq_map] at ht
    obtain ⟨v, hv, rfl⟩ := List.mem_map.mp ht
    exact .infer _ (hm v hv)
  obtain ⟨t, htree, hall⟩ := (parallel_agrees_with_sequential {} {} none none hm).2
    (({} : Options).inferAll mixedSamples) (List.cons_ne_nil _ _) hreach
  rw [htree, hall]

end SampleSchema
