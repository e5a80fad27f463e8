import SampleSchema.Proofs.Invariant

/-!
# Builders agree with runs

A list of samples is fed to a builder piece by piece, each piece added sample by sample, at once, or
as a schema that was inferred and merged elsewhere, and results are asked for in between.  The
builder then ends where one sequential run over the whole list ends (`builder_agrees_with_run`).

An action adds the schema of its samples to that of the samples before (`Holds.act`), by
associativity of merging.  A run records what is met inside the samples before what is met between
them, and a builder takes turns; the conflicts are the same up to their order (`Recorded.act`).
-/

namespace SampleSchema

open Observation

namespace Builder

/-- What may be done with a builder. -/
inductive Action where
  | add (sample : Sample)
  | extend (samples : List Sample)
  /-- Merges in the schema of samples that were inferred and merged elsewhere. -/
  | addMerged (samples : List Sample) (nonempty : samples ≠ [])
  | build (rootName : Option String)

namespace Action

/-- The samples that an action feeds to a builder. -/
def samples : Action → List Sample
  | .add v          => [v]
  | .extend vs      => vs
  | .addMerged vs _ => vs
  | .build _        => []

/-- Whether the builder infers the samples of an action itself. -/
def isDirect : Action → Bool
  | .addMerged .. => false
  | _             => true

/-- Whether an action asks for a result. -/
def isBuild : Action → Bool
  | .build _ => true
  | _        => false

end Action

/-- The builder after an action, and the result if the action asks for one. -/
def act (b : Builder) : Action → Builder × Option (Except NameCollision Inferred)
  | .add v          => (b.add v, none)
  | .extend vs      => (b.extend vs, none)
  | .addMerged vs _ => (b.addSchema (b.options.inferMerged false vs) vs.length, none)
  | .build rootName => (b, some (b.build rootName))

/-- The builder after some actions. -/
def after (b : Builder) (as : List Action) : Builder := as.foldl (fun b a => (b.act a).1) b

end Builder

/-! ### Merges of samples in two pieces -/

namespace Options

/-- The merge of inferred schemas is the summary of what is seen. -/
theorem mergeAll_inferAll (o : Options) {vs : List Sample}
    (h : ∀ v ∈ vs, v.hasDistinctNames = true) :
    mergeAll (o.inferAll vs) = if vs = [] then none else some (summary (vs.map o.observe)) := by
  have hall : o.inferAll vs = (vs.map o.observe).map fun x => summary [x] := by
    rw [o.inferAll_eq_map, List.map_map]
    exact List.map_congr_left fun v hv => o.infer_eq_summary (h v hv)
  split
  · subst vs
    rfl
  · rename_i hne
    rw [hall, mergeAll_singletons (hne ∘ List.map_eq_nil_iff.mp)]

/-- The samples of two pieces are merged by merging each piece and then the two merges. -/
theorem mergeAll_inferAll_append (o : Options) {xs ys : List Sample}
    (hx : ∀ v ∈ xs, v.hasDistinctNames = true) (hy : ∀ v ∈ ys, v.hasDistinctNames = true) :
    mergeAll (o.inferAll (xs ++ ys)) =
      Option.merge Schema.merge (mergeAll (o.inferAll xs)) (mergeAll (o.inferAll ys)) := by
  have hxy : ∀ v ∈ xs ++ ys, v.hasDistinctNames = true := by
    intro v hv
    exact (List.mem_append.mp hv).elim (hx v) (hy v)
  rw [mergeAll_inferAll o hxy, mergeAll_inferAll o hx, mergeAll_inferAll o hy]
  by_cases hxe : xs = []
  · subst hxe
    by_cases hye : ys = []
    · subst hye
      rfl
    · rw [List.nil_append, if_neg hye, if_pos rfl]
      rfl
  · by_cases hye : ys = []
    · subst hye
      rw [List.append_nil, if_neg hxe, if_pos rfl]
      rfl
    · have hm : (summary (xs.map o.observe)).merge (summary (ys.map o.observe)) =
          summary (xs.map o.observe ++ ys.map o.observe) :=
        merge_summary (hxe ∘ List.map_eq_nil_iff.mp) (hye ∘ List.map_eq_nil_iff.mp)
      have hne : xs ++ ys ≠ [] := fun e => hxe (List.append_eq_nil_iff.mp e).1
      rw [if_neg hxe, if_neg hye, if_neg hne, List.map_append, ← hm]
      rfl

end Options

/-! ### What a builder holds -/

namespace Builder

variable {o : Options} {samples more : List Sample} {b : Builder}

/-- What adding one sample keeps is kept by adding several at once. -/
theorem extend_of_add {P : List Sample → Builder → Prop}
    (hadd : ∀ {samples b v}, P samples b → v.hasDistinctNames = true →
      P (samples ++ [v]) (b.add v)) :
    ∀ {more samples : List Sample} {b : Builder}, P samples b →
      (∀ v ∈ more, v.hasDistinctNames = true) → P (samples ++ more) (b.extend more)
  | [], samples, b, hb, _ => by
      rw [List.append_nil]
      exact hb
  | v :: more, samples, b, hb, hm => by
      obtain ⟨hv, hm⟩ := List.forall_mem_cons.mp hm
      rw [← List.singleton_append, ← List.append_assoc]
      exact extend_of_add hadd (hadd hb hv) hm

/-- What each of some actions keeps is kept by all of them together. -/
theorem after_of_act {P : List Sample → Builder → Prop} : ∀ {as : List Action},
    (∀ a ∈ as, ∀ {samples b}, P samples b → P (samples ++ a.samples) (b.act a).1) →
      ∀ {samples : List Sample} {b : Builder}, P samples b →
        P (samples ++ as.flatMap Action.samples) (b.after as)
  | [], _, samples, b, hb => by
      rw [List.flatMap_nil, List.append_nil]
      exact hb
  | a :: as, hact, samples, b, hb => by
      obtain ⟨ha, hact⟩ := List.forall_mem_cons.mp hact
      rw [List.flatMap_cons, ← List.append_assoc]
      exact after_of_act hact (ha hb)

/-- A builder with the given options that holds the schema and the number of some samples. -/
structure Holds (o : Options) (samples : List Sample) (b : Builder) : Prop where
  distinct : ∀ v ∈ samples, v.hasDistinctNames = true
  options  : b.options = o
  merged?  : b.merged? = mergeAll (o.inferAll samples)
  count    : b.sampleCount = samples.length

theorem holds_start : Holds o [] { options := o } := ⟨nofun, rfl, rfl, rfl⟩

/-- A schema that is added does not change the options. -/
theorem options_addSchema (b : Builder) (t : Schema) (count : Int) :
    (b.addSchema t count).options = b.options := by
  rw [addSchema]
  split <;> rfl

/-- A schema that is added counts for its samples. -/
theorem sampleCount_addSchema (b : Builder) (t : Schema) (count : Int) :
    (b.addSchema t count).sampleCount = b.sampleCount + count := by
  rw [addSchema]
  split <;> rfl

/-- A schema that is added brings the conflicts of its merge. -/
theorem conflicts_addSchema (b : Builder) (t : Schema) (count : Int) :
    (b.addSchema t count).conflicts = b.conflicts ++
      (match b.merged? with
        | none => []
        | some m => m.conflicts "" t) := by
  rw [addSchema]
  split <;> simp [*]

/-- What a builder holds is the merge of a run over its samples. -/
theorem Holds.merged (hb : Holds o samples b) : b.merged = o.inferMerged false samples := by
  rw [Builder.merged, hb.merged?]
  rfl

/-- A schema that stands for some samples is merged in. -/
theorem Holds.addSchema (hb : Holds o samples b) (hm : ∀ v ∈ more, v.hasDistinctNames = true)
    {t : Schema} (ht : mergeAll (o.inferAll more) = some t) :
    Holds o (samples ++ more) (b.addSchema t more.length) := by
  refine ⟨fun v hv => (List.mem_append.mp hv).elim (hb.distinct v) (hm v), ?_, ?_, ?_⟩
  · rw [options_addSchema, hb.options]
  · rw [merged?_addSchema, hb.merged?, o.mergeAll_inferAll_append hb.distinct hm, ht]
    cases mergeAll (o.inferAll samples) <;> rfl
  · rw [sampleCount_addSchema, hb.count, List.length_append, Int.natCast_add]

/-- One more sample leaves a builder with that sample as well. -/
theorem Holds.add {v : Sample} (hb : Holds o samples b) (hv : v.hasDistinctNames = true) :
    Holds o (samples ++ [v]) (b.add v) := by
  have hnoted : Holds o samples { b with conflicts := b.conflicts ++ b.options.conflicts "" v } :=
    ⟨hb.distinct, hb.options, hb.merged?, hb.count⟩
  have ht : mergeAll (o.inferAll [v]) = some (b.options.infer v) := by
    rw [hb.options]
    rfl
  exact hnoted.addSchema (by simpa using hv) ht

/-- One action adds its samples to those that the builder holds. -/
theorem Holds.act {a : Action} (ha : ∀ v ∈ a.samples, v.hasDistinctNames = true)
    (hb : Holds o samples b) : Holds o (samples ++ a.samples) (b.act a).1 := by
  cases a with
  | add v => exact hb.add (ha v List.mem_cons_self)
  | extend vs => exact extend_of_add Holds.add hb ha
  | addMerged vs hne =>
      have hvs : ∀ v ∈ vs, v.hasDistinctNames = true := ha
      have ht : mergeAll (o.inferAll vs) = some (b.options.inferMerged false vs) := by
        rw [hb.options, o.inferMerged_eq_summary false hvs, o.mergeAll_inferAll hvs, if_neg hne]
      exact hb.addSchema hvs ht
  | build rootName =>
      rw [Action.samples, List.append_nil]
      exact hb

end Builder

/-! ### What a builder records -/

theorem foldConflicts_append (path : String) : ∀ (ts us : List Schema) (t : Schema),
    foldConflicts path t (ts ++ us) =
      foldConflicts path t ts ++ foldConflicts path (ts.foldl Schema.merge t) us
  | [], us, t => rfl
  | u :: ts, us, t => by
      rw [List.cons_append, foldConflicts, foldConflicts, foldConflicts_append path ts us,
        List.append_assoc, List.foldl_cons]

/-- One more schema adds the conflicts of merging it into the merge of those before. -/
theorem mergeAllConflicts_append (ts : List Schema) (t : Schema) :
    mergeAllConflicts (ts ++ [t]) = mergeAllConflicts ts ++
      (match mergeAll ts with
        | none => []
        | some m => m.conflicts "" t) := by
  cases ts with
  | nil => rfl
  | cons u ts =>
      rw [List.cons_append, mergeAllConflicts, foldConflicts_append, mergeAllConflicts, mergeAll]
      simp only [foldConflicts, List.append_nil]

namespace Builder

variable {o : Options} {samples : List Sample} {b : Builder}

/-- A builder that holds some samples and has recorded what a sequential run over them records. -/
structure Recorded (o : Options) (samples : List Sample) (b : Builder) : Prop
    extends Holds o samples b where
  conflicts : b.conflicts.Perm (o.inferConflicts false samples)

theorem recorded_start : Recorded o [] { options := o } := ⟨holds_start, .nil⟩

theorem Recorded.add {v : Sample} (hb : Recorded o samples b) (hv : v.hasDistinctNames = true) :
    Recorded o (samples ++ [v]) (b.add v) := by
  have hinfer : o.inferAll (samples ++ [v]) = o.inferAll samples ++ [o.infer v] := by
    rw [o.inferAll_eq_map, o.inferAll_eq_map, List.map_append, List.map_singleton]
  have hrun : o.inferConflicts false (samples ++ [v]) =
      (samples.flatMap (o.conflicts "") ++ o.conflicts "" v) ++
        (mergeAllConflicts (o.inferAll samples) ++ (match mergeAll (o.inferAll samples) with
          | none => []
          | some m => m.conflicts "" (o.infer v))) := by
    simp only [Options.inferConflicts, hinfer, mergeAllConflicts_append, List.flatMap_append,
      List.flatMap_singleton, Bool.false_eq_true, if_false]
  have hbefore : b.conflicts.Perm
      (samples.flatMap (o.conflicts "") ++ mergeAllConflicts (o.inferAll samples)) := hb.conflicts
  refine ⟨hb.toHolds.add hv, ?_⟩
  rw [Builder.add, conflicts_addSchema, hb.options, hrun, ← List.append_assoc]
  simp only [hb.merged?]
  -- the conflicts inside the new sample move in front of those between the samples before
  refine List.Perm.append_right _ ((hbefore.append_right _).trans ?_)
  rw [List.append_assoc, List.append_assoc]
  exact List.perm_append_comm.append_left _

theorem Recorded.act {a : Action} (hd : a.isDirect = true)
    (ha : ∀ v ∈ a.samples, v.hasDistinctNames = true) (hb : Recorded o samples b) :
    Recorded o (samples ++ a.samples) (b.act a).1 := by
  cases a with
  | add v => exact hb.add (ha v List.mem_cons_self)
  | extend vs => exact extend_of_add Recorded.add hb ha
  | addMerged vs hne => cases hd
  | build rootName =>
      rw [Action.samples, List.append_nil]
      exact hb

/-! ### Results -/

/-- The result of a builder, or the failure to name what it holds. -/
theorem build_eq (b : Builder) (rootName : Option String) :
    b.build rootName =
      match b.merged.named (givenOr rootName ({} : Settings).rootTypeName) with
      | .error c => .error c
      | .ok schema => .ok ⟨schema, b.merged, b.conflicts, b.sampleCount⟩ := by
  rw [build]
  cases b.merged.named (givenOr rootName ({} : Settings).rootTypeName) <;> rfl

/-- Asking for results makes no difference to the builder. -/
theorem after_filter_isBuild : ∀ (as : List Action) (b : Builder),
    b.after (as.filter fun a => !a.isBuild) = b.after as
  | [], _ => rfl
  | a :: as, b => by
      cases a with
      | build rootName => exact after_filter_isBuild as b
      | add v => exact after_filter_isBuild as (b.add v)
      | extend vs => exact after_filter_isBuild as (b.extend vs)
      | addMerged vs hne => exact after_filter_isBuild as (b.act (.addMerged vs hne)).1

/-- Whether a builder agrees with sequential runs over some samples: it holds what they merge and
counts as many, it has recorded the same conflicts up to their order if it inferred all samples
itself, and asked for a result it gives what a run for the same root name gives, or fails to name
the same object. -/
structure Agrees (o : Options) (samples : List Sample) (direct : Bool) (b : Builder) : Prop where
  merged      : b.merged = o.inferMerged false samples
  sampleCount : b.sampleCount = samples.length
  conflicts   : direct = true → b.conflicts.Perm (o.inferConflicts false samples)
  results     : ∀ (s : Settings) (rootName : Option String),
    givenOr rootName s.rootTypeName = givenOr rootName ({} : Settings).rootTypeName →
      (∃ i j, b.build rootName = .ok i ∧ s.runWith o rootName none false samples = .ok j ∧
        i.schema = j.schema ∧ i.merged = j.merged ∧ i.sampleCount = j.sampleCount ∧
        (direct = true → i.conflicts.Perm j.conflicts)) ∨
      ∃ c, b.build rootName = .error c ∧
        s.runWith o rootName none false samples = .error (.collision c)

theorem Holds.agrees {direct : Bool} (hb : Holds o samples b)
    (hc : direct = true → b.conflicts.Perm (o.inferConflicts false samples)) :
    Agrees o samples direct b := by
  refine ⟨hb.merged, hb.count, hc, fun s rootName hs => ?_⟩
  rw [build_eq, s.runWith_eq o rootName none false hb.distinct, hs, hb.merged,
    o.inferMerged_eq_summary false hb.distinct]
  cases (summary (samples.map o.observe)).named
      (givenOr rootName ({} : Settings).rootTypeName) with
  | error c => exact Or.inr ⟨c, rfl, rfl⟩
  | ok schema => exact Or.inl ⟨_, _, rfl, rfl, rfl, rfl, hb.count, hc⟩

end Builder

/-- **Builders agree with runs.**  A builder that was fed some samples, in whatever pieces and
however often it was asked for results, agrees with a sequential run over all of them.  Asking for a
result leaves it as it is, and so it ends as if it had never been asked. -/
theorem builder_agrees_with_run (o : Options) {as : List Builder.Action}
    (h : ∀ v ∈ as.flatMap Builder.Action.samples, v.hasDistinctNames = true) :
    (({ options := o } : Builder).after as).Agrees o (as.flatMap Builder.Action.samples)
        (as.all Builder.Action.isDirect) ∧
      (∀ rootName, ((({ options := o } : Builder).after as).act (.build rootName)).1 =
        ({ options := o } : Builder).after as) ∧
      ({ options := o } : Builder).after as =
        ({ options := o } : Builder).after (as.filter fun a => !a.isBuild) := by
  have hact : ∀ a ∈ as, ∀ v ∈ a.samples, v.hasDistinctNames = true := fun a ha v hv =>
    h v (List.mem_flatMap.mpr ⟨a, ha, hv⟩)
  have hb : (({ options := o } : Builder).after as).Holds o (as.flatMap Builder.Action.samples) :=
    Builder.after_of_act (fun a ha => Builder.Holds.act (hact a ha)) Builder.holds_start
  refine ⟨hb.agrees fun hd => ?_, fun _ => rfl, (Builder.after_filter_isBuild as _).symm⟩
  have hr : (({ options := o } : Builder).after as).Recorded o
      (as.flatMap Builder.Action.samples) :=
    Builder.after_of_act (fun a ha => Builder.Recorded.act (List.all_eq_true.mp hd a ha)
      (hact a ha)) Builder.recorded_start
  exact hr.conflicts

/-- A number on its own, mixed samples at once and again as a schema of their own, with a result in
between and one at the end. -/
def mixedActions : List Builder.Action :=
  [.add (.int 3), .build none, .extend mixedSamples, .addMerged mixedSamples (by decide),
    .build (some "Item")]

theorem builder_agrees_with_run_of_mixed :
    (({ options := {} } : Builder).after mixedActions).Agrees {}
        (.int 3 :: mixedSamples ++ mixedSamples) false ∧
      (({ options := {} } : Builder).after (mixedActions.take 3)).Agrees {}
        (.int 3 :: mixedSamples) true := by
  have hall : ∀ v ∈ mixedActions.flatMap Builder.Action.samples, v.hasDistinctNames = true := by
    decide
  have hdirect : ∀ v ∈ (mixedActions.take 3).flatMap Builder.Action.samples,
      v.hasDistinctNames = true := by decide
  exact ⟨(builder_agrees_with_run {} hall).1, (builder_agrees_with_run {} hdirect).1⟩

end SampleSchema
