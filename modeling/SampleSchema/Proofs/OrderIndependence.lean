import SampleSchema.Proofs.Invariant
import SampleSchema.Proofs.Rearrangement

/-!
# The order of samples does not matter

Merging schemas in another order gives the same schema up to the order of fields, and so does
inference from samples in another order, or with the items of arrays in another order, at any depth
(`alike_of_rearranged`).

Both come down to summaries: merging reachable schemas gives the summary of the values they were
built from, put one after the other, and rearranged values have alike summaries.
-/

namespace SampleSchema

/-! ### Rearranged samples -/

mutual

/-- Whether two samples are the same but for the order of the items of arrays. -/
inductive Sample.Rearranged : Sample → Sample → Prop where
  | refl (v : Sample) : Sample.Rearranged v v
  | array {vs ws us : List Sample} (h : AllRearranged vs ws) (hp : ws.Perm us) :
      Sample.Rearranged (.array vs) (.array us)
  | object {fs gs : List (String × Sample)} (h : MembersRearranged fs gs) :
      Sample.Rearranged (.object fs) (.object gs)

/-- Whether samples are rearranged one by one. -/
inductive AllRearranged : List Sample → List Sample → Prop where
  | nil : AllRearranged [] []
  | cons {v w : Sample} {vs ws : List Sample} (h : v.Rearranged w) (hs : AllRearranged vs ws) :
      AllRearranged (v :: vs) (w :: ws)

/-- Whether fields have the same names and rearranged values one by one. -/
inductive MembersRearranged : List (String × Sample) → List (String × Sample) → Prop where
  | nil : MembersRearranged [] []
  | cons {name : String} {v w : Sample} {fs gs : List (String × Sample)} (h : v.Rearranged w)
      (hs : MembersRearranged fs gs) : MembersRearranged ((name, v) :: fs) ((name, w) :: gs)

end

theorem AllRearranged.refl : ∀ vs : List Sample, AllRearranged vs vs
  | []      => .nil
  | v :: vs => .cons (.refl v) (AllRearranged.refl vs)

mutual

/-- Rearranging a sample keeps its names distinct. -/
theorem Sample.Rearranged.hasDistinctNames : ∀ {v w : Sample}, v.Rearranged w →
    v.hasDistinctNames = true → w.hasDistinctNames = true
  | _, _, .refl _, hv => hv
  | _, _, .array h hp, hv => by
      have hws := allHaveDistinctNames_iff.mp (h.hasDistinctNames hv)
      exact allHaveDistinctNames_iff.mpr fun w hw => hws w (hp.mem_iff.mpr hw)
  | _, _, .object h, hv => by
      obtain ⟨hn, hf⟩ := (Bool.and_eq_true _ _).mp hv
      obtain ⟨hnames, hgs⟩ := h.hasDistinctNames hf
      rw [Sample.hasDistinctNames, ← hnames, hgs, Bool.and_true]
      exact hn

theorem AllRearranged.hasDistinctNames : ∀ {vs ws : List Sample}, AllRearranged vs ws →
    allHaveDistinctNames vs = true → allHaveDistinctNames ws = true
  | _, _, .nil, _ => rfl
  | _, _, .cons h hs, hv => by
      obtain ⟨hv, hvs⟩ := (Bool.and_eq_true _ _).mp hv
      exact (Bool.and_eq_true _ _).mpr ⟨h.hasDistinctNames hv, hs.hasDistinctNames hvs⟩

theorem MembersRearranged.hasDistinctNames : ∀ {fs gs : List (String × Sample)},
    MembersRearranged fs gs → fieldsHaveDistinctNames fs = true →
      fs.map Prod.fst = gs.map Prod.fst ∧ fieldsHaveDistinctNames gs = true
  | _, _, .nil, _ => ⟨rfl, rfl⟩
  | _, _, .cons h hs, hf => by
      obtain ⟨hv, hfs⟩ := (Bool.and_eq_true _ _).mp hf
      obtain ⟨hnames, hgs⟩ := hs.hasDistinctNames hfs
      rw [List.map_cons, List.map_cons, hnames]
      exact ⟨rfl, (Bool.and_eq_true _ _).mpr ⟨h.hasDistinctNames hv, hgs⟩⟩

end

/-! ### Rearranged samples are observed as rearranged values -/

namespace Options

mutual

/-- What is seen of rearranged samples is alike. -/
theorem observe_alike (o : Options) : ∀ {v w : Sample}, v.Rearranged w →
    Observation.Alike (o.observe v) (o.observe w)
  | _, _, .refl _ => .refl _
  | _, _, .array h hp => by
      rw [observe, observe]
      refine .array (observeAll_alike o h) ?_
      rw [observeAll_eq_map, observeAll_eq_map]
      exact hp.map _
  | _, _, .object h => .object (observeFields_alike o h)

/-- What is seen of several rearranged samples is alike one by one. -/
theorem observeAll_alike (o : Options) : ∀ {vs ws : List Sample}, AllRearranged vs ws →
    Observation.AllAlike (o.observeAll vs) (o.observeAll ws)
  | _, _, .nil => .nil
  | _, _, .cons h hs => .cons (observe_alike o h) (observeAll_alike o hs)

/-- What is seen of rearranged members is alike one by one. -/
theorem observeFields_alike (o : Options) : ∀ {fs gs : List (String × Sample)},
    MembersRearranged fs gs → Observation.MembersAlike (o.observeFields fs) (o.observeFields gs)
  | _, _, .nil => .nil
  | _, _, .cons h hs => .cons (observe_alike o h) (observeFields_alike o hs)

end

/-- Samples that are rearranged one by one and then put into another order have alike merges. -/
theorem inferMerged_alike (o : Options) (parallel parallel' : Bool) {vs ws us : List Sample}
    (hvs : ∀ v ∈ vs, v.hasDistinctNames = true) (h : AllRearranged vs ws) (hp : ws.Perm us) :
    (o.inferMerged parallel vs).Alike (o.inferMerged parallel' us) := by
  have hws := allHaveDistinctNames_iff.mp (h.hasDistinctNames (allHaveDistinctNames_iff.mpr hvs))
  have hus : ∀ u ∈ us, u.hasDistinctNames = true := fun u hu => hws u (hp.mem_iff.mpr hu)
  rw [o.inferMerged_eq_summary parallel hvs, o.inferMerged_eq_summary parallel' hus,
    ← o.observeAll_eq_map, ← o.observeAll_eq_map]
  refine Observation.summaryWith_alike ⟨_, o.observeAll_alike h, ?_⟩ false
  rw [o.observeAll_eq_map, o.observeAll_eq_map]
  exact hp.map _

end Options

/-! ### Merging in another order -/

/-- A rearrangement of images is the list of images of a rearrangement. -/
theorem exists_map_of_perm {α β : Type} {f : α → β} {xs : List α} {ys : List β}
    (h : (xs.map f).Perm ys) : ∃ zs, xs.Perm zs ∧ ys = zs.map f := by
  generalize hl : xs.map f = l at h
  induction h generalizing xs with
  | nil => exact ⟨xs, .refl xs, hl.symm⟩
  | cons a _ ih =>
      obtain ⟨x, xs, rfl, rfl, hxs⟩ := List.map_eq_cons_iff.mp hl
      obtain ⟨zs, hp, rfl⟩ := ih hxs
      exact ⟨x :: zs, hp.cons x, rfl⟩
  | swap a b l =>
      obtain ⟨x, xs, rfl, rfl, hxs⟩ := List.map_eq_cons_iff.mp hl
      obtain ⟨y, xs, rfl, rfl, rfl⟩ := List.map_eq_cons_iff.mp hxs
      exact ⟨y :: x :: xs, .swap y x xs, rfl⟩
  | trans _ _ ih ih' =>
      obtain ⟨zs, hp, rfl⟩ := ih hl
      obtain ⟨ws, hp', rfl⟩ := ih' rfl
      exact ⟨ws, hp.trans hp', rfl⟩

theorem mergeAll_alike {ts us : List Schema} (hts : ∀ t ∈ ts, t.Reachable) (hp : ts.Perm us) :
    Option.Rel Schema.Alike (mergeAll ts) (mergeAll us) := by
  obtain ⟨xss, rfl, hxss⟩ := exists_summaries hts
  obtain ⟨yss, hpx, rfl⟩ := exists_map_of_perm hp
  by_cases hx : xss = []
  · rw [hx] at hpx
    rw [hx, hpx.symm.eq_nil]
    exact .none
  · have hy : yss ≠ [] := fun e => hx (e ▸ hpx).eq_nil
    rw [mergeAll_summaries xss hx hxss,
      mergeAll_summaries yss hy fun ys hys => hxss ys (hpx.mem_iff.mpr hys)]
    exact .some (Observation.summaryWith_alike (.of_perm hpx.flatten) false)

/-- **The order of samples does not matter.**  Reachable schemas in another order have merges that
are the same up to the order of fields, and are structurally equal.  So have samples in another
order, or with the items of arrays in another order, at any depth, whether runs are parallel or
not. -/
theorem alike_of_rearranged :
    (∀ ts us : List Schema, (∀ t ∈ ts, t.Reachable) → ts.Perm us →
      Option.Rel (fun t u => t.Alike u ∧ t.signature = u.signature) (mergeAll ts) (mergeAll us)) ∧
    ∀ (o : Options) (vs ws us : List Sample), (∀ v ∈ vs, v.hasDistinctNames = true) →
      AllRearranged vs ws → ws.Perm us →
        (∀ parallel parallel' : Bool,
          (o.inferMerged parallel vs).Alike (o.inferMerged parallel' us) ∧
            (o.inferMerged parallel vs).signature = (o.inferMerged parallel' us).signature) ∧
        ∀ (s : Settings) (r r' : RunRequest) (i j : Inferred), s.optionsFor r = .ok o →
          s.optionsFor r' = .ok o → s.run r vs = .ok i → s.run r' us = .ok j →
            i.merged.Alike j.merged ∧ i.merged.signature = j.merged.signature := by
  have hnodup : ∀ p : ObjectPart, p.Observed → (p.fields.map Field.name).Nodup :=
    fun _ hp => hp.nodup_names
  constructor
  · intro ts us hts hp
    have halike := mergeAll_alike hts hp
    cases ht : mergeAll ts <;> cases hu : mergeAll us <;> rw [ht, hu] at halike <;> cases halike
    · exact .none
    · rename_i h
      have hw := wellFormed_mergeAll (fun t ht => (hts t ht).wellFormed) ht
      exact .some ⟨h, h.signature_eq hnodup hw⟩
  · intro o vs ws us hvs h hp
    have hmerged : ∀ parallel parallel' : Bool,
        (o.inferMerged parallel vs).Alike (o.inferMerged parallel' us) ∧
          (o.inferMerged parallel vs).signature = (o.inferMerged parallel' us).signature :=
      fun parallel parallel' => by
        have halike := o.inferMerged_alike parallel parallel' hvs h hp
        exact ⟨halike, halike.signature_eq hnodup (o.wellFormed_inferMerged parallel hvs)⟩
    refine ⟨hmerged, fun s r r' i j hr hr' hi hj => ?_⟩
    rw [Settings.merged_of_run hr hi, Settings.merged_of_run hr' hj]
    exact hmerged _ _

/-- Schemas of mixed samples in reverse, objects whose fields come in another order, and runs over
two samples. -/
theorem alike_of_rearranged_of_mixed :
    Option.Rel (fun t u => t.Alike u ∧ t.signature = u.signature)
        (mergeAll (({} : Options).inferAll mixedSamples))
        (mergeAll (({} : Options).inferAll mixedSamples).reverse) ∧
      (({} : Options).inferMerged false
          [.array [.object [("id", .int 1)], .object [("name", .string "x")]]]).signature =
        (({} : Options).inferMerged true
          [.array [.object [("name", .string "x")], .object [("id", .int 1)]]]).signature ∧
      (Schema.optional .int).Alike (.optional .int) := by
  have hreach : ∀ t ∈ ({} : Options).inferAll mixedSamples, t.Reachable := by
    intro t ht
    rw [Options.inferAll_eq_map] at ht
    obtain ⟨v, hv, rfl⟩ := List.mem_map.mp ht
    have hm : ∀ v ∈ mixedSamples, v.hasDistinctNames = true := by decide
    exact .infer _ (hm v hv)
  have hrun : ({} : Settings).run { options := some {} } [.int 3, .null] =
      .ok ⟨⟨.optional .int, []⟩, .optional .int, [], 2⟩ := by with_unfolding_all rfl
  have hrun' : ({} : Settings).run { options := some {} } [.null, .int 3] =
      .ok ⟨⟨.optional .int, []⟩, .optional .int, [], 2⟩ := by with_unfolding_all rfl
  refine ⟨alike_of_rearranged.1 _ _ hreach (List.reverse_perm _).symm, ?_, ?_⟩
  · exact ((alike_of_rearranged.2 {} _ _ _ (by decide)
      (.cons (.array (.refl _) (.swap _ _ [])) .nil) (.refl _)).1 false true).2
  · exact ((alike_of_rearranged.2 {} _ _ _ (by decide) (.refl _) (.swap _ _ [])).2 {}
      { options := some {} } { options := some {} } _ _ rfl rfl hrun hrun').1

end SampleSchema
