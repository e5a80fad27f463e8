import SampleSchema.Proofs.Invariant
import SampleSchema.Proofs.MergeConflicts

/-!
# Conflicts are complete and never spurious

The paths of the conflicts that inference records are the paths of the unions in the schema it gives,
and every conflict is about kinds of that union (`Reports`).  This holds of runs, parallel or not and
whatever the order in which they list conflicts, and of builders (`reports_of_inference`).

Every sample accounts for the unions in its own schema, and merging accounts for the rest, one merge
at a time, from left to right or in adjacent pairs.
-/

namespace SampleSchema

/-- The merges of schemas that came from samples account for their unions. -/
theorem accounts_merge_observed {a b : Schema} (ha : a.WellFormed .observed)
    (hb : b.WellFormed .observed) (path : String) :
    Accounts (a.unions path ++ b.unions path) (a.conflicts path b) ((a.merge b).unions path) :=
  accounts_merge (fun _ hp => hp.nodup_names) ha hb path

/-! ### Folds and trees of merges -/

/-- Merging schemas one after the other accounts for their unions. -/
theorem accounts_foldConflicts (path : String) : ∀ {ts : List Schema} {t : Schema},
    t.WellFormed .observed → (∀ u ∈ ts, u.WellFormed .observed) →
      Accounts (t.unions path ++ unionsOfAll path ts) (foldConflicts path t ts)
        ((ts.foldl Schema.merge t).unions path)
  | [], t, _, _ => by
      rw [unionsOfAll, List.append_nil, foldConflicts]
      exact .refl _
  | u :: ts, t, ht, hts => by
      obtain ⟨hu, hts⟩ := List.forall_mem_cons.mp hts
      have hmerge := (accounts_merge_observed ht hu path).append (.refl (unionsOfAll path ts))
      have hrest := accounts_foldConflicts path (ht.merge hu) hts
      rw [unionsOfAll_cons, ← List.append_assoc, foldConflicts, List.foldl_cons]
      rw [List.append_nil] at hmerge
      exact hmerge.trans hrest

/-- Merging all schemas from the left accounts for their unions. -/
theorem accounts_mergeAllConflicts : ∀ {ts : List Schema}, (∀ t ∈ ts, t.WellFormed .observed) →
    Accounts (unionsOfAll "" ts) (mergeAllConflicts ts) (((mergeAll ts).getD .null).unions "")
  | [], _ => .refl []
  | _ :: _, h => by
      obtain ⟨ht, hts⟩ := List.forall_mem_cons.mp h
      exact accounts_foldConflicts "" ht hts

/-- Merging neighbours keeps schemas well formed. -/
theorem wellFormed_mergePairs {k : Conditions} : ∀ {ts : List Schema},
    (∀ t ∈ ts, t.WellFormed k) → ∀ t ∈ mergePairs ts, t.WellFormed k
  | [], h | [_], h => h
  | a :: b :: ts, h => by
      obtain ⟨ha, h⟩ := List.forall_mem_cons.mp h
      obtain ⟨hb, h⟩ := List.forall_mem_cons.mp h
      exact List.forall_mem_cons.mpr ⟨ha.merge hb, wellFormed_mergePairs h⟩

/-- Merging neighbours accounts for their unions. -/
theorem accounts_pairConflicts : ∀ {ts : List Schema}, (∀ t ∈ ts, t.WellFormed .observed) →
    Accounts (unionsOfAll "" ts) (pairConflicts ts) (unionsOfAll "" (mergePairs ts))
  | [], _ | [_], _ => .refl _
  | a :: b :: ts, h => by
      obtain ⟨ha, h⟩ := List.forall_mem_cons.mp h
      obtain ⟨hb, h⟩ := List.forall_mem_cons.mp h
      rw [unionsOfAll_cons, unionsOfAll_cons, ← List.append_assoc, pairConflicts, mergePairs]
      exact (accounts_merge_observed ha hb "").append (accounts_pairConflicts h)

theorem accounts_mergeTreeConflicts : ∀ {ts : List Schema}, (∀ t ∈ ts, t.WellFormed .observed) →
    Accounts (unionsOfAll "" ts) (mergeTreeConflicts ts) (((mergeTree ts).getD .null).unions "")
  | [], _ => by
      simp only [mergeTreeConflicts, mergeTree]
      exact .refl []
  | [t], _ => by
      simp only [mergeTreeConflicts, mergeTree, unionsOfAll, List.append_nil]
      exact .refl _
  | a :: b :: ts, h => by
      rw [mergeTreeConflicts, mergeTree]
      -- one level of merges, and then the levels above it
      exact (accounts_pairConflicts h).trans
        (accounts_mergeTreeConflicts (wellFormed_mergePairs h))
termination_by ts => ts.length
decreasing_by
  have := length_mergePairs_le ts
  simp only [List.length_cons, mergePairs]; omega

/-! ### The conflicts of samples -/

namespace Options

mutual

/-- The conflicts inside a sample account for the unions in its schema. -/
theorem accounts_infer (o : Options) : ∀ {v : Sample}, v.hasDistinctNames = true →
    ∀ path, Accounts [] (o.conflicts path v) ((o.infer v).unions path)
  | .null, _, _ | .bool _, _, _ | .float _, _, _ => .refl []
  | .int n, _, path => by
      simp only [infer, inferInt, conflicts]
      split <;> exact .refl []
  | .string s, _, path => by
      simp only [infer, inferText, conflicts]
      rcases meaning? o.layouts s with _ | (_ | _) <;> exact .refl []
  | .array [], _, _ => by
      rw [conflicts, itemConflicts]
      exact .refl []
  | .array (v :: vs), h, path => by
      obtain ⟨hv, hvs⟩ := (Bool.and_eq_true _ _).mp h
      rw [conflicts, itemConflicts, infer, inferAll]
      exact (accounts_infer o hv _).trans
        (accounts_itemConflicts o hvs (o.wellFormed_infer hv) (elementPath path))
  | .object fields, h, path => by
      rw [conflicts, infer]
      exact accounts_memberConflicts o ((Bool.and_eq_true _ _).mp h).2 path

theorem accounts_itemConflicts (o : Options) : ∀ {vs : List Sample} {t : Schema},
    allHaveDistinctNames vs = true → t.WellFormed .observed → ∀ path,
      Accounts (t.unions path) (o.itemConflicts path (some t) vs)
        (((o.inferAll vs).foldl Schema.merge t).unions path)
  | [], t, _, _, path => by
      rw [itemConflicts, inferAll]
      exact .refl _
  | v :: vs, t, h, ht, path => by
      obtain ⟨hv, hvs⟩ := (Bool.and_eq_true _ _).mp h
      have hvw : (o.infer v).WellFormed .observed := o.wellFormed_infer hv
      have hboth := (Accounts.refl (t.unions path)).append (accounts_infer o hv path)
      have hmerge := accounts_merge_observed ht hvw path
      have hrest := accounts_itemConflicts o hvs (ht.merge hvw) path
      rw [List.append_nil, List.nil_append] at hboth
      rw [itemConflicts, inferAll, List.foldl_cons]
      exact (hboth.trans hmerge).trans hrest

theorem accounts_memberConflicts (o : Options) : ∀ {fs : List (String × Sample)},
    fieldsHaveDistinctNames fs = true → ∀ path,
      Accounts [] (o.memberConflicts path fs) (fieldUnions path (o.inferFields fs))
  | [], _, _ => .refl []
  | (name, v) :: fs, h, path => by
      obtain ⟨hv, hfs⟩ := (Bool.and_eq_true _ _).mp h
      exact (accounts_infer o hv (fieldPath path name)).append (accounts_memberConflicts o hfs path)

end

/-- The conflicts inside samples account for the unions in their schemas. -/
theorem accounts_inferAll (o : Options) : ∀ {vs : List Sample},
    (∀ v ∈ vs, v.hasDistinctNames = true) →
      Accounts [] (vs.flatMap (o.conflicts "")) (unionsOfAll "" (o.inferAll vs))
  | [], _ => .refl []
  | v :: vs, h => by
      obtain ⟨hv, hvs⟩ := List.forall_mem_cons.mp h
      exact (o.accounts_infer hv "").append (accounts_inferAll o hvs)

/-- **The conflicts of a run account for all unions of its schema.** -/
theorem accounts_inferConflicts (o : Options) (parallel : Bool) {samples : List Sample}
    (h : ∀ v ∈ samples, v.hasDistinctNames = true) :
    Accounts [] (o.inferConflicts parallel samples) ((o.inferMerged parallel samples).unions "") := by
  have hinside := o.accounts_inferAll h
  have hw := o.wellFormed_inferAll (allHaveDistinctNames_iff.mpr h)
  cases parallel with
  | false => exact hinside.trans (accounts_mergeAllConflicts hw)
  | true =>
      refine (hinside.trans (accounts_mergeTreeConflicts hw)).of_mem_iff (fun _ => .rfl) fun c => ?_
      exact List.mem_mergeSort.symm

end Options

/-! ### Builders -/

namespace Builder

/-- A builder whose conflicts account for the unions in its schema and in another one still does
after merging that in. -/
theorem accounts_addSchema {b : Builder} {t : Schema} (count : Int)
    (hw : ∀ m, b.merged? = some m → m.WellFormed .observed) (ht : t.WellFormed .observed)
    (hb : Accounts [] b.conflicts (b.merged.unions "" ++ t.unions "")) :
    Accounts [] (b.addSchema t count).conflicts ((b.addSchema t count).merged.unions "") := by
  rw [addSchema]
  split
  · rename_i hm
    rw [merged, hm] at hb
    exact hb
  · rename_i m hm
    rw [merged, hm] at hb
    exact hb.trans (accounts_merge_observed (hw m hm) ht "")

theorem accounts_add {b : Builder} {v : Sample} (hv : v.hasDistinctNames = true)
    (hw : ∀ m, b.merged? = some m → m.WellFormed .observed)
    (hb : Accounts [] b.conflicts (b.merged.unions "")) :
    Accounts [] (b.add v).conflicts ((b.add v).merged.unions "") :=
  accounts_addSchema 1 hw (b.options.wellFormed_infer hv)
    (hb.append (b.options.accounts_infer hv ""))

theorem accounts_extend : ∀ {vs : List Sample} {b : Builder},
    (∀ v ∈ vs, v.hasDistinctNames = true) →
      (∀ t, b.merged? = some t → t.WellFormed .observed) →
        Accounts [] b.conflicts (b.merged.unions "") →
          Accounts [] (b.extend vs).conflicts ((b.extend vs).merged.unions "")
  | [], _, _, _, hb => hb
  | v :: vs, b, h, hw, hb => by
      obtain ⟨hv, hvs⟩ := List.forall_mem_cons.mp h
      exact accounts_extend (b := b.add v) hvs (wellFormed_add hv hw) (accounts_add hv hw hb)

theorem Fed.accounts {o : Options} {b : Builder} (h : Fed o b) :
    Accounts [] b.conflicts (b.merged.unions "") := by
  induction h with
  | start => exact .refl []
  | add hb hv ih => exact accounts_add hv hb.wellFormed ih
  | extend hb hvs ih => exact accounts_extend hvs hb.wellFormed ih

end Builder

/-! ### Reports -/

/-- Whether conflicts report the unions in a schema: their paths are those of the unions, and each
is about two kinds or more that the union at its path tells apart. -/
structure Reports (cs : List Conflict) (t : Schema) : Prop where
  paths   : ∀ path, (∃ c ∈ cs, c.path = path) ↔ ∃ u ∈ t.unions "", u.1 = path
  covered : ∀ c ∈ cs, ∃ u ∈ t.unions "", u.1 = c.path ∧ c.buckets ⊆ bucketsOf u.2
  genuine : ∀ c ∈ cs, c.Genuine

theorem Accounts.reports {cs ds : List Conflict} {t : Schema} (h : Accounts [] cs (t.unions ""))
    (hp : ds.Perm cs) : Reports ds t := by
  refine ⟨fun path => ⟨?_, ?_⟩, fun c hc => (h.genuine c (hp.mem_iff.mp hc)).2,
    fun c hc => (h.genuine c (hp.mem_iff.mp hc)).1⟩
  · rintro ⟨c, hc, rfl⟩
    obtain ⟨u, hu, e, -⟩ := (h.genuine c (hp.mem_iff.mp hc)).2
    exact ⟨u, hu, e⟩
  · rintro ⟨u, hu, rfl⟩
    rcases h.reported u hu with ⟨v, hv, -⟩ | ⟨c, hc, e⟩
    · cases hv
    · exact ⟨c, hp.mem_iff.mpr hc, e⟩

/-- There are conflicts exactly at the paths of the unions of the summary. -/
theorem Options.paths_inferConflicts {samples : List Sample}
    (h : ∀ v ∈ samples, v.hasDistinctNames = true) (o : Options) (parallel : Bool)
    (path : String) : (∃ c ∈ o.inferConflicts parallel samples, c.path = path) ↔
      ∃ u ∈ (Observation.summary (samples.map o.observe)).unions "", u.1 = path := by
  have haccounts := o.accounts_inferConflicts parallel h
  rw [o.inferMerged_eq_summary parallel h] at haccounts
  exact (haccounts.reports (.refl _)).paths path

/-- What a run records are the conflicts of its samples under its options. -/
theorem Settings.conflicts_of_run {s : Settings} {r : RunRequest} {o : Options}
    {samples : List Sample} {i : Inferred} (ho : s.optionsFor r = .ok o)
    (hi : s.run r samples = .ok i) :
    i.conflicts = o.inferConflicts (r.isParallel s samples.length) samples := by
  rw [run_eq ho] at hi
  split at hi
  · cases hi
  · split at hi
    · cases hi
    · cases hi
      rfl

/-- **Conflicts are complete and never spurious.**  In whatever order they are recorded, they report
the unions in the schema: when schemas are merged from left to right or in adjacent pairs, in runs,
and in builders. -/
theorem reports_of_inference :
    (∀ (o : Options) (parallel : Bool) (samples : List Sample) (cs : List Conflict),
      (∀ v ∈ samples, v.hasDistinctNames = true) → cs.Perm (o.inferConflicts parallel samples) →
        Reports cs (o.inferMerged parallel samples)) ∧
    (∀ (s : Settings) (r : RunRequest) (samples : List Sample) (i : Inferred) (cs : List Conflict),
      (∀ v ∈ samples, v.hasDistinctNames = true) → s.run r samples = .ok i →
        cs.Perm i.conflicts → Reports cs i.merged) ∧
    ∀ (o : Options) (b : Builder), Builder.Fed o b → Reports b.conflicts b.merged := by
  refine ⟨fun o parallel samples cs h hp => ?_, fun s r samples i cs h hi hp => ?_,
    fun o b hb => hb.accounts.reports (.refl _)⟩
  · exact (o.accounts_inferConflicts parallel h).reports hp
  · obtain ⟨o, ho⟩ := Settings.exists_optionsFor hi
    rw [Settings.conflicts_of_run ho hi] at hp
    rw [Settings.merged_of_run ho hi]
    exact (o.accounts_inferConflicts _ h).reports hp

/-- Mixed samples merged in pairs, with their conflicts in reverse; a run without conflicts; a
builder to which a number and then mixed samples were added. -/
theorem reports_of_mixed :
    Reports (({} : Options).inferConflicts true mixedSamples).reverse
        (({} : Options).inferMerged true mixedSamples) ∧
      Reports [] (.array .int false) ∧
      Reports ((({ options := {} } : Builder).add (.int 3)).extend mixedSamples).conflicts
        ((({ options := {} } : Builder).add (.int 3)).extend mixedSamples).merged :=
  ⟨reports_of_inference.1 {} true _ _ (by decide) (List.reverse_perm _),
    reports_of_inference.2.1 {} { options := some {} } _ _ _ (by decide) run_array (.refl _),
    reports_of_inference.2.2 {} _ (.extend (.add .start rfl) (by decide))⟩

end SampleSchema
