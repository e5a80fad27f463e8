import SampleSchema.Builder
import SampleSchema.Proofs.Reachable
import SampleSchema.Proofs.Runs
import SampleSchema.Proofs.WellFormed

/-!
# The invariant of inference

The schemas that inference, merging, builders and runs give are well-formed, with objects that look
as if they were seen in samples (`Conditions.observed`): `wellFormed_of_inference`.  One merge keeps
the invariant (`Schema.WellFormed.merge`), so every fold of merges does.

`Builder.Fed` are the builders that a new one becomes by adding samples.
-/

namespace SampleSchema

/-! ### Folds of merges -/

section
variable {k : Conditions}

/-- Merging well-formed schemas one after the other gives a well-formed one. -/
theorem wellFormed_foldl_merge : ∀ {ts : List Schema} {t : Schema}, t.WellFormed k →
    (∀ u ∈ ts, u.WellFormed k) → (ts.foldl Schema.merge t).WellFormed k
  | [], _, ht, _ => ht
  | u :: ts, t, ht, hts => by
      obtain ⟨hu, hts⟩ := List.forall_mem_cons.mp hts
      rw [List.foldl_cons]
      exact wellFormed_foldl_merge (ht.merge hu) hts

/-- The merge of well-formed schemas is well formed. -/
theorem wellFormed_mergeAll {ts : List Schema} {t : Schema} (hts : ∀ u ∈ ts, u.WellFormed k)
    (h : mergeAll ts = some t) : t.WellFormed k := by
  cases ts with
  | nil => cases h
  | cons u ts =>
      cases h
      obtain ⟨hu, hts⟩ := List.forall_mem_cons.mp hts
      exact wellFormed_foldl_merge hu hts

end

/-! ### The schema of one sample -/

namespace Options

/-- Each member of a sample is a field that was seen once. -/
theorem inferFields_eq_map (o : Options) : ∀ fs : List (String × Sample),
    o.inferFields fs = fs.map fun f => ⟨f.1, o.infer f.2, false, 1, 1⟩
  | [] => rfl
  | (n, v) :: fs => by rw [inferFields, inferFields_eq_map o fs, List.map_cons]

/-- An object that is seen once has every one of its fields once. -/
theorem observed_of_sample (o : Options) {fs : List (String × Sample)}
    (hn : (fs.map Prod.fst).Nodup) : ObjectPart.Observed ⟨none, 1, o.inferFields fs⟩ := by
  have hall : ∀ f ∈ o.inferFields fs, f.optional = false ∧ f.observed = 1 ∧ f.total = 1 := by
    rw [inferFields_eq_map]
    intro f hf
    obtain ⟨m, -, rfl⟩ := List.mem_map.mp hf
    exact ⟨rfl, rfl, rfl⟩
  refine ⟨⟨?_, Int.le_refl 1, fun f hf => (hall f hf).2.2, fun f hf => ?_, fun f hf => ?_,
    fun f hf h => ?_⟩, rfl, fun f hf => ?_⟩
  · rw [inferFields_eq_map, List.map_map]
    exact hn
  · exact Int.le_of_eq ((hall f hf).2.1.trans (hall f hf).2.2.symm)
  · rw [(hall f hf).1, (hall f hf).2.1, (hall f hf).2.2]
    simp
  · rw [(hall f hf).1] at h
    cases h
  · exact Int.le_of_eq (hall f hf).2.1.symm

mutual

/-- The schema of a sample is well formed. -/
theorem wellFormed_infer (o : Options) : ∀ {v : Sample}, v.hasDistinctNames = true →
    (o.infer v).WellFormed .observed
  | .null, _ | .bool _, _ | .float _, _ => trivial
  | .int n, _ => by
      rw [infer, inferInt]
      split <;> trivial
  | .string s, _ => by
      rw [infer, inferText]
      rcases meaning? o.layouts s with _ | (_ | _) <;> trivial
  | .array items, h => by
      rw [infer]
      split
      · exact ⟨fun _ => rfl, trivial⟩
      · rename_i t ht
        exact ⟨nofun, wellFormed_mergeAll (wellFormed_inferAll o h) ht⟩
  | .object fields, h => by
      obtain ⟨hn, hf⟩ := (Bool.and_eq_true _ _).mp h
      refine ⟨o.observed_of_sample (of_decide_eq_true hn), fieldsWellFormed_iff.mpr fun f hm => ?_⟩
      exact wellFormed_inferFields o hf f hm

/-- The schemas of several samples are well formed. -/
theorem wellFormed_inferAll (o : Options) : ∀ {vs : List Sample},
    allHaveDistinctNames vs = true → ∀ t ∈ o.inferAll vs, t.WellFormed .observed
  | [], _ => by simp [inferAll]
  | v :: vs, h => by
      obtain ⟨hv, hvs⟩ := (Bool.and_eq_true _ _).mp h
      exact List.forall_mem_cons.mpr ⟨wellFormed_infer o hv, wellFormed_inferAll o hvs⟩

/-- The types of inferred fields are well formed. -/
theorem wellFormed_inferFields (o : Options) : ∀ {fs : List (String × Sample)},
    fieldsHaveDistinctNames fs = true →
      ∀ f ∈ o.inferFields fs, f.type.WellFormed .observed
  | [], _ => by simp [inferFields]
  | (n, v) :: fs, h => by
      obtain ⟨hv, hfs⟩ := (Bool.and_eq_true _ _).mp h
      exact List.forall_mem_cons.mpr ⟨wellFormed_infer o hv, wellFormed_inferFields o hfs⟩

end

theorem wellFormed_inferMerged (o : Options) (parallel : Bool) {samples : List Sample}
    (h : ∀ v ∈ samples, v.hasDistinctNames = true) :
    (o.inferMerged parallel samples).WellFormed .observed := by
  -- a parallel run gives the same schema
  have hsame : o.inferMerged parallel samples = (mergeAll (o.inferAll samples)).getD .null := by
    rw [o.inferMerged_eq_summary parallel h, ← o.inferMerged_eq_summary false h]
    rfl
  rw [hsame]
  cases hm : mergeAll (o.inferAll samples) with
  | none => exact trivial
  | some t =>
      exact wellFormed_mergeAll (o.wellFormed_inferAll (allHaveDistinctNames_iff.mpr h)) hm

end Options

/-- **Every reachable schema is well formed.** -/
theorem Schema.Reachable.wellFormed {t : Schema} (h : t.Reachable) :
    t.WellFormed .observed := by
  induction h with
  | infer o h => exact o.wellFormed_infer h
  | merge _ _ iha ihb => exact iha.merge ihb

/-! ### Builders -/

/-- The builders that one without samples becomes by adding samples, one by one or several at a
time. -/
inductive Builder.Fed (o : Options) : Builder → Prop where
  | start : Fed o { options := o }
  | add {b : Builder} {v : Sample} (hb : Fed o b) (hv : v.hasDistinctNames = true) : Fed o (b.add v)
  | extend {b : Builder} {vs : List Sample} (hb : Fed o b)
      (hvs : ∀ v ∈ vs, v.hasDistinctNames = true) : Fed o (b.extend vs)

namespace Builder

theorem merged?_addSchema (b : Builder) (t : Schema) (count : Int) :
    (b.addSchema t count).merged? = some (match b.merged? with
      | none => t
      | some m => m.merge t) := by
  rw [addSchema]
  split <;> simp [*]

theorem wellFormed_add {b : Builder} {v : Sample} (hv : v.hasDistinctNames = true)
    (hb : ∀ t, b.merged? = some t → t.WellFormed .observed) :
    ∀ t, (b.add v).merged? = some t → t.WellFormed .observed := by
  intro t ht
  rw [add, merged?_addSchema] at ht
  cases ht
  have hv : (b.options.infer v).WellFormed .observed := b.options.wellFormed_infer hv
  cases hm : b.merged? with
  | none => exact hv
  | some m => exact (hb m hm).merge hv

theorem wellFormed_extend : ∀ {vs : List Sample} {b : Builder},
    (∀ v ∈ vs, v.hasDistinctNames = true) →
      (∀ t, b.merged? = some t → t.WellFormed .observed) →
        ∀ t, (b.extend vs).merged? = some t → t.WellFormed .observed
  | [], _, _, hb => hb
  | v :: vs, b, h, hb => by
      obtain ⟨hv, hvs⟩ := List.forall_mem_cons.mp h
      exact wellFormed_extend (b := b.add v) hvs (wellFormed_add hv hb)

theorem Fed.wellFormed {o : Options} {b : Builder} (h : Fed o b) :
    ∀ t, b.merged? = some t → t.WellFormed .observed := by
  induction h with
  | start => exact nofun
  | add _ hv ih => exact wellFormed_add hv ih
  | extend _ hvs ih => exact wellFormed_extend hvs ih

end Builder

/-! ### Runs -/

/-- A run that succeeds has usable options. -/
theorem Settings.exists_optionsFor {s : Settings} {r : RunRequest} {samples : List Sample}
    {i : Inferred} (h : s.run r samples = .ok i) : ∃ o, s.optionsFor r = .ok o := by
  rw [optionsFor]
  cases hr : r.options with
  | some o => exact ⟨o, rfl⟩
  | none =>
      cases ho : s.options with
      | ok o => exact ⟨o, rfl⟩
      | error e =>
          rw [run, hr, ho] at h
          cases h

/-- **Whatever inference gives is well-formed**: the schema of a sample, the merge of well-formed
schemas, and what builders hold and runs merge. -/
theorem wellFormed_of_inference :
    (∀ (o : Options) (v : Sample), v.hasDistinctNames = true →
      (o.infer v).WellFormed .observed) ∧
    (∀ a b : Schema, a.WellFormed .observed → b.WellFormed .observed →
      (a.merge b).WellFormed .observed) ∧
    (∀ (o : Options) (b : Builder), Builder.Fed o b → b.merged.WellFormed .observed) ∧
    ∀ (s : Settings) (r : RunRequest) (samples : List Sample) (i : Inferred),
      (∀ v ∈ samples, v.hasDistinctNames = true) → s.run r samples = .ok i →
        i.merged.WellFormed .observed := by
  refine ⟨fun o v hv => o.wellFormed_infer hv, fun a b ha hb => ha.merge hb,
    fun o b hb => ?_, fun s r samples i h hi => ?_⟩
  · rw [Builder.merged]
    cases hm : b.merged? with
    | none => exact trivial
    | some t => exact hb.wellFormed t hm
  · obtain ⟨o, ho⟩ := Settings.exists_optionsFor hi
    rw [Settings.merged_of_run ho hi]
    exact o.wellFormed_inferMerged _ h

/-- Two objects of which one has an identifier, merged with an array; a builder to which a number and
then samples of all kinds were added. -/
theorem wellFormed_of_mixed :
    (({} : Options).infer (.object [("id", .int 1), ("tags", .array [])])).WellFormed .observed ∧
      ((Schema.object none 2 [⟨"id", .optional .int, true, 1, 2⟩]).merge
        (.array .null true)).WellFormed .observed ∧
      ((({ options := {} } : Builder).add (.int 3)).extend mixedSamples).merged.WellFormed .observed ∧
      (Schema.array .int false).WellFormed .observed := by
  have hobject : (Schema.object none 2 [⟨"id", .optional .int, true, 1, 2⟩]).WellFormed .observed :=
    ⟨⟨⟨by decide, by decide, by decide, by decide, by decide, by decide⟩, rfl, by decide⟩,
      ⟨rfl, trivial⟩, trivial⟩
  exact ⟨wellFormed_of_inference.1 {} _ rfl,
    wellFormed_of_inference.2.1 _ _ hobject ⟨fun _ => rfl, trivial⟩,
    wellFormed_of_inference.2.2.1 {} _ (.extend (.add .start rfl) (by decide)),
    wellFormed_of_inference.2.2.2 {} { options := some {} } _ _ (by decide) run_array⟩

end SampleSchema
