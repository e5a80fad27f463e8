import SampleSchema.Proofs.Runs

/-!
# Schemas accept what they were inferred from

`Schema.Accepts` says which samples a schema describes, without mention of merging.  What the
summary of some values accepts, the summary of more values accepts (`grows`).  Hence a merge
of reachable schemas accepts what either of them accepts, and a run accepts each of its samples
(`accepts_merged`).
-/

namespace SampleSchema
open Observation

/-! ### Which samples a schema describes -/

mutual

/-- Whether a schema describes a sample, under the options that classify numbers and texts. -/
def Schema.Accepts (o : Options) : Schema → Sample → Prop
  | .null, v          => v = .null
  | .bool, v          => ∃ b, v = .bool b
  | .int, v           => ∃ n, v = .int n ∧ o.intMin ≤ n ∧ n ≤ o.intMax
  | .float, v         => (∃ n, v = .int n) ∨ ∃ x, v = .float x
  | .string false, v  => ∃ s, v = .string s
  | .string true, v   => ∃ s, v = .string s ∧ meaning? o.layouts s = some .number
  | .timestamp, v     => ∃ s l, v = .string s ∧ meaning? o.layouts s = some (.timestamp l)
  | .array _ true, v  => v = .array []
  | .array e false, v => ∃ items, v = .array items ∧ ∀ w ∈ items, e.Accepts o w
  | .object _ _ fs, v =>
    ∃ members, v = .object members ∧ (∀ m ∈ members, acceptsMember o fs m) ∧
      ∀ f ∈ fs, f.optional = false → f.name ∈ members.map Prod.fst
  | .optional t, v    => v = .null ∨ t.Accepts o v
  | .union ts, v      => acceptsSome o ts v

/-- Whether some field has the name of a member and describes its value. -/
def acceptsMember (o : Options) : List (Field Schema) → String × Sample → Prop
  | [], _ => False
  | ⟨name, type, _, _, _⟩ :: fs, m =>
    (name = m.1 ∧ type.Accepts o m.2) ∨ acceptsMember o fs m

/-- Whether some variant describes a sample. -/
def acceptsSome (o : Options) : List Schema → Sample → Prop
  | [], _ => False
  | t :: ts, v => t.Accepts o v ∨ acceptsSome o ts v

end

section
variable {o : Options}

theorem acceptsMember_iff {m : String × Sample} {fs : List (Field Schema)} :
    acceptsMember o fs m ↔ ∃ f ∈ fs, f.name = m.1 ∧ f.type.Accepts o m.2 := by
  induction fs with
  | nil => simp [acceptsMember]
  | cons f fs ih =>
    simp only [acceptsMember, ih, List.mem_cons, or_and_right, exists_or, exists_eq_left]

theorem acceptsSome_iff {v : Sample} {ts : List Schema} :
    acceptsSome o ts v ↔ ∃ t ∈ ts, t.Accepts o v := by
  induction ts with
  | nil => simp [acceptsSome]
  | cons t ts ih =>
    simp only [acceptsSome, ih, List.mem_cons, or_and_right, exists_or, exists_eq_left]

theorem accepts_choice_iff {v : Sample} (nullable : Bool) : ∀ {ts : List Schema},
    (Schema.choice nullable ts).Accepts o v ↔
      (v = .null ∧ (nullable = true ∨ ts = [])) ∨ ∃ t ∈ ts, t.Accepts o v
  | [] => by simp [Schema.choice, Schema.Accepts]
  | [t] => by cases nullable <;> simp [Schema.choice, Schema.Accepts]
  | t :: u :: ts => by
      cases nullable <;> simp [Schema.choice, Schema.Accepts, acceptsSome, acceptsSome_iff]

theorem accepts_summaryWith_iff {v : Sample} {absent : Bool} {xs : List Observation}
    (hx : xs ≠ []) : (summaryWith absent xs).Accepts o v ↔
      (v = .null ∧ (absent = true ∨ .null ∈ xs)) ∨
        ∃ t ∈ (partsOf xs).toList, t.Accepts o v := by
  have hnil : (partsOf xs).toList = [] → .null ∈ xs := fun h =>
    any_isNull_iff.mp (any_isNull_of_toList hx h)
  rw [summaryWith, accepts_choice_iff, variants_eq_toList, Bool.or_eq_true, any_isNull_iff,
    or_assoc, or_iff_left_of_imp hnil]

/-! ### More numbers and more texts -/

theorem ne_nil_of_subset {α : Type} {l₁ l₂ : List α} (h : l₁ ≠ []) (hs : l₁ ⊆ l₂) : l₂ ≠ [] :=
  fun e => h (List.subset_nil.mp (e ▸ hs))

/-- The class of more numbers is the same, or that of doubles. -/
theorem NumberPart.ofAll_of_subset {ps qs : List NumberPart} {p : NumberPart} (hs : ps ⊆ qs)
    (hp : NumberPart.ofAll ps = some p) :
    ∃ q, NumberPart.ofAll qs = some q ∧ (q = p ∨ q = .float) := by
  have hne : ps ≠ [] := fun e => by rw [ofAll_eq_none_iff.mpr e] at hp; cases hp
  have hqs : qs ≠ [] := ne_nil_of_subset hne hs
  rw [ofAll, if_neg hne] at hp
  rw [ofAll, if_neg hqs]
  refine ⟨_, rfl, ?_⟩
  by_cases h : qs.all (· = .int) = true
  · have hall : ps.all (· = .int) = true :=
      List.all_eq_true.mpr fun a ha => List.all_eq_true.mp h a (hs ha)
    rw [if_pos hall] at hp
    rw [if_pos h]
    exact Or.inl (Option.some.inj hp)
  · rw [if_neg h]
    exact Or.inr rfl

/-- The class of more texts is the same, or that of plain texts. -/
theorem StringPart.ofAll_of_subset {ps qs : List StringPart} {p : StringPart} (hs : ps ⊆ qs)
    (hp : StringPart.ofAll ps = some p) :
    ∃ q, StringPart.ofAll qs = some q ∧ (q = p ∨ q = .plain) := by
  have hne : ps ≠ [] := fun e => by rw [ofAll_eq_none_iff.mpr e] at hp; cases hp
  have hqs : qs ≠ [] := ne_nil_of_subset hne hs
  have hall : ∀ c : StringPart, qs.all (· = c) = true → ps.all (· = c) = true := fun c h =>
    List.all_eq_true.mpr fun a ha => List.all_eq_true.mp h a (hs ha)
  rw [ofAll, if_neg hne] at hp
  rw [ofAll, if_neg hqs]
  refine ⟨_, rfl, ?_⟩
  by_cases ht : qs.all (· = .timestamp) = true
  · rw [if_pos (hall _ ht)] at hp
    rw [if_pos ht]
    exact Or.inl (Option.some.inj hp)
  rw [if_neg ht]
  by_cases hn : qs.all (· = .numeric) = true
  · have hps : ps.all (· = .timestamp) ≠ true := fun h =>
      Bool.false_ne_true ((all_numeric_eq_false hne h).symm.trans (hall _ hn))
    rw [if_neg hps, if_pos (hall _ hn)] at hp
    rw [if_pos hn]
    exact Or.inl (Option.some.inj hp)
  · rw [if_neg hn]
    exact Or.inr rfl

/-- Doubles describe whatever a class of numbers describes. -/
theorem NumberPart.accepts_float {p : NumberPart} {v : Sample} (h : p.toSchema.Accepts o v) :
    Schema.float.Accepts o v := by
  cases p with
  | int =>
      obtain ⟨n, rfl, -⟩ := h
      exact Or.inl ⟨n, rfl⟩
  | float => exact h

/-- Plain texts describe whatever a class of texts describes. -/
theorem StringPart.accepts_plain {p : StringPart} {v : Sample} (h : p.toSchema.Accepts o v) :
    (Schema.string false).Accepts o v := by
  cases p with
  | plain => exact h
  | numeric =>
      obtain ⟨s, rfl, -⟩ := h
      exact ⟨s, rfl⟩
  | timestamp =>
      obtain ⟨s, -, rfl, -⟩ := h
      exact ⟨s, rfl⟩

/-- An array part accepts arrays only. -/
theorem ArrayPart.eq_array_of_accepts {a : ArrayPart} {v : Sample}
    (h : a.toSchema.Accepts o v) : ∃ ws, v = .array ws := by
  obtain ⟨e, _ | _⟩ := a
  · exact h.imp fun _ h => h.1
  · exact ⟨[], h⟩

/-! ### More values -/

variable (o) in
/-- What the summary of some values describes of `v`, the summary of more values describes too. -/
def Grows (v : Sample) : Prop :=
  ∀ {xs ys : List Observation} {m n : Bool}, xs ⊆ ys → xs ≠ [] → (m = true → n = true) →
    (summaryWith m xs).Accepts o v → (summaryWith n ys).Accepts o v

/-- An array that is accepted stays so when more is seen. -/
theorem arrayPart_grows {ws : List Sample} (ih : ∀ w ∈ ws, Grows o w) {xs ys : List Observation}
    (hs : xs ⊆ ys) {a : ArrayPart} (ha : arrayPart xs = some a)
    (h : a.toSchema.Accepts o (.array ws)) :
    ∃ b, arrayPart ys = some b ∧ b.toSchema.Accepts o (.array ws) := by
  have hx : arrays xs ≠ [] := fun e => by rw [arrayPart_eq_none_iff.mpr e] at ha; cases ha
  have hy : arrays ys ≠ [] := ne_nil_of_subset hx (List.filterMap_subset _ hs)
  have hitems : items xs ⊆ items ys := items_subset hs
  rw [arrayPart, if_neg hx] at ha
  rw [arrayPart, if_neg hy]
  refine ⟨_, (apply_ite some _ _ _).symm, ?_⟩
  by_cases hix : items xs = []
  · rw [if_pos hix] at ha
    cases ha
    obtain rfl : ws = [] := by simpa [ArrayPart.toSchema, Schema.Accepts] using h
    -- more values may have items, and then the array has an element type
    split
    · rfl
    · exact ⟨[], rfl, by simp⟩
  · rw [if_neg hix] at ha
    cases ha
    rw [if_neg (ne_nil_of_subset hix hitems)]
    -- the element type of the items, which are among the items of more values
    obtain ⟨_, hws, hall⟩ := h
    cases hws
    exact ⟨ws, rfl, fun w hw => ih w hw hitems hix id (hall w hw)⟩

/-- The summary of some objects describes an object when each of its members has a name that
occurs, with a value that the field describes, and a name that all objects have is there. -/
theorem accepts_objects_iff {ms : List (String × Sample)}
    {os : List (List (String × Observation))} (ho : os ≠ []) {a : Option String} {k : Int} :
    (Schema.object a k ((names os).map (fieldOf os))).Accepts o (.object ms) ↔
      (∀ m ∈ ms, m.1 ∈ names os ∧ (fieldOf os m.1).type.Accepts o m.2) ∧
        ∀ name, (∀ fields ∈ os, name ∈ fields.map Prod.fst) → name ∈ ms.map Prod.fst := by
  have hmember : ∀ m : String × Sample, acceptsMember o ((names os).map (fieldOf os)) m ↔
      m.1 ∈ names os ∧ (fieldOf os m.1).type.Accepts o m.2 := by
    intro m
    rw [acceptsMember_iff]
    constructor
    · rintro ⟨f, hf, hm, h⟩
      obtain ⟨name, hn, rfl⟩ := List.mem_map.mp hf
      obtain rfl : name = m.1 := hm
      exact ⟨hn, h⟩
    · rintro ⟨hn, h⟩
      exact ⟨_, List.mem_map_of_mem hn, rfl, h⟩
  have hoptional : ∀ name, (fieldOf os name).optional = false ↔
      ∀ fields ∈ os, name ∈ fields.map Prod.fst := by
    intro name
    rw [fieldOf, decide_eq_false_iff_not, length_valuesUnder_lt_iff]
    simp only [not_exists, not_and, Classical.not_not]
  have hrequired : (∀ f ∈ (names os).map (fieldOf os), f.optional = false →
        f.name ∈ ms.map Prod.fst) ↔
      ∀ name, (∀ fields ∈ os, name ∈ fields.map Prod.fst) → name ∈ ms.map Prod.fst := by
    constructor
    · intro h name hall
      obtain ⟨fields, hf⟩ := List.exists_mem_of_ne_nil os ho
      have hn : name ∈ names os := mem_names.mpr ⟨fields, hf, hall fields hf⟩
      exact h _ (List.mem_map_of_mem hn) ((hoptional name).mpr hall)
    · rintro h f hf hopt
      obtain ⟨name, -, rfl⟩ := List.mem_map.mp hf
      exact h name ((hoptional name).mp hopt)
  simp only [Schema.Accepts, Sample.object.injEq, exists_eq_left', hmember, hrequired]

/-- An object that is accepted stays so when more is seen. -/
theorem objectPart_grows {ms : List (String × Sample)} (ih : ∀ m ∈ ms, Grows o m.2)
    {xs ys : List Observation} (hs : xs ⊆ ys) {a : ObjectPart} (ha : objectPart xs = some a)
    (h : a.toSchema.Accepts o (.object ms)) :
    ∃ b, objectPart ys = some b ∧ b.toSchema.Accepts o (.object ms) := by
  have hx : objects xs ≠ [] := fun e => by rw [objectPart_eq_none_iff.mpr e] at ha; cases ha
  have hobjects : objects xs ⊆ objects ys := List.filterMap_subset _ hs
  have hy : objects ys ≠ [] := ne_nil_of_subset hx hobjects
  rw [objectPart, if_neg hx] at ha
  cases ha
  rw [objectPart, if_neg hy]
  refine ⟨_, rfl, ?_⟩
  obtain ⟨hmembers, hrequired⟩ := (accepts_objects_iff hx).mp h
  refine (accepts_objects_iff hy).mpr ⟨fun m hm => ?_, fun name hall => ?_⟩
  · -- the field may have become optional, but its values are among the values of more objects
    obtain ⟨hn, hm'⟩ := hmembers m hm
    have hv : valuesUnder m.1 (objects xs) ≠ [] := fun e => valuesUnder_eq_nil_iff.mp e hn
    have hvs : valuesUnder m.1 (objects xs) ⊆ valuesUnder m.1 (objects ys) :=
      List.filterMap_subset _ hobjects
    refine ⟨?_, ih m hm hvs hv (fun hd => ?_) hm'⟩
    · obtain ⟨fields, hf, hmem⟩ := mem_names.mp hn
      exact mem_names.mpr ⟨fields, hobjects hf, hmem⟩
    · obtain ⟨fields, hf, hmiss⟩ := length_valuesUnder_lt_iff.mp (of_decide_eq_true hd)
      exact decide_eq_true (length_valuesUnder_lt_iff.mpr ⟨fields, hobjects hf, hmiss⟩)
  · -- a name that all of more objects have, all of the first objects have
    exact hrequired name fun fields hf => hall fields (hobjects hf)

/-- What is accepted stays so when more is seen, if that holds inside of it. -/
theorem grows_of_smaller {v : Sample} (ih : ∀ w, sizeOf w < sizeOf v → Grows o w) :
    Grows o v := by
  intro xs ys m n hs hx hmn h
  have hy : ys ≠ [] := ne_nil_of_subset hx hs
  rw [accepts_summaryWith_iff hx] at h
  rw [accepts_summaryWith_iff hy]
  rcases h with ⟨rfl, hnull⟩ | ⟨t, ht, hv⟩
  · exact Or.inl ⟨rfl, hnull.imp hmn fun hm => hs hm⟩
  refine Or.inr ?_
  -- the parts stay apart, and each of them describes at least what it described before
  rcases Parts.mem_toList_iff.mp ht with ⟨hb, rfl⟩ | ⟨p, hp, rfl⟩ | ⟨p, hp, rfl⟩ | ⟨a, ha, rfl⟩ |
      ⟨a, ha, rfl⟩
  · have hb' : ys.any isBool = true := any_isBool_iff.mpr (hs (any_isBool_iff.mp hb))
    exact ⟨.bool, Parts.mem_toList_iff.mpr (Or.inl ⟨hb', rfl⟩), hv⟩
  · obtain ⟨q, hq, e⟩ := NumberPart.ofAll_of_subset (List.filterMap_subset _ hs) hp
    refine ⟨_, Parts.mem_toList_iff.mpr (Or.inr (Or.inl ⟨q, hq, rfl⟩)), ?_⟩
    rcases e with rfl | rfl
    · exact hv
    · exact NumberPart.accepts_float hv
  · obtain ⟨q, hq, e⟩ := StringPart.ofAll_of_subset (List.filterMap_subset _ hs) hp
    refine ⟨_, Parts.mem_toList_iff.mpr (Or.inr (Or.inr (Or.inl ⟨q, hq, rfl⟩))), ?_⟩
    rcases e with rfl | rfl
    · exact hv
    · exact StringPart.accepts_plain hv
  · obtain ⟨ws, rfl⟩ : ∃ ws, v = .array ws := ArrayPart.eq_array_of_accepts hv
    have hlt : ∀ w ∈ ws, sizeOf w < sizeOf (Sample.array ws) := fun w hw => by
      have := List.sizeOf_lt_of_mem hw
      rw [Sample.array.sizeOf_spec]
      omega
    obtain ⟨b, hb, hv'⟩ := arrayPart_grows (fun w hw => ih w (hlt w hw)) hs ha hv
    exact ⟨_, Parts.mem_toList_iff.mpr (Or.inr (Or.inr (Or.inr (Or.inl ⟨b, hb, rfl⟩)))), hv'⟩
  · obtain ⟨ms, rfl⟩ : ∃ ms, v = .object ms := hv.imp fun _ h => h.1
    have hlt : ∀ m ∈ ms, sizeOf m.2 < sizeOf (Sample.object ms) := fun ⟨name, w⟩ hm => by
      have := List.sizeOf_lt_of_mem hm
      simp only [Sample.object.sizeOf_spec, Prod.mk.sizeOf_spec] at this ⊢
      omega
    obtain ⟨b, hb, hv'⟩ := objectPart_grows (fun m hm => ih m.2 (hlt m hm)) hs ha hv
    exact ⟨_, Parts.mem_toList_iff.mpr (Or.inr (Or.inr (Or.inr (Or.inr ⟨b, hb, rfl⟩)))), hv'⟩

/-- **The summary of more values describes more**: nothing that was described is lost. -/
theorem grows (v : Sample) : Grows o v := grows_of_smaller fun w _ => grows w
termination_by sizeOf v

end

/-! ### Inferred and merged schemas -/

namespace Options

/-- An inferred object has the names of the sample. -/
theorem names_inferFields (o : Options) : ∀ fs : List (String × Sample),
    (o.inferFields fs).map Field.name = fs.map Prod.fst
  | [] => rfl
  | (n, v) :: fs => by rw [inferFields, List.map_cons, List.map_cons, names_inferFields o fs]

/-- The summary of samples describes the samples that their own schemas describe. -/
theorem accepts_summary_of_mem {o : Options} {vs : List Sample} {v : Sample} (hv : v ∈ vs)
    (hd : v.hasDistinctNames = true) (h : (o.infer v).Accepts o v) :
    (summary (vs.map o.observe)).Accepts o v := by
  rw [o.infer_eq_summary hd] at h
  have hsub : [o.observe v] ⊆ vs.map o.observe := by
    simpa using ⟨v, hv, rfl⟩
  exact grows v hsub (List.cons_ne_nil _ _) id h

mutual

/-- The schema of a sample describes the sample. -/
theorem accepts_infer (o : Options) : ∀ {v : Sample}, v.hasDistinctNames = true →
    (o.infer v).Accepts o v
  | .null, _ => rfl
  | .bool b, _ => ⟨b, rfl⟩
  | .int n, _ => by
      rw [infer, inferInt]
      split
      · exact ⟨n, rfl, ‹_›⟩
      · exact Or.inl ⟨n, rfl⟩
  | .float x, _ => Or.inr ⟨x, rfl⟩
  | .string s, _ => by
      rw [infer, inferText]
      cases hm : meaning? o.layouts s with
      | none => exact ⟨s, rfl⟩
      | some m =>
          cases m with
          | number => exact ⟨s, rfl, hm⟩
          | timestamp l => exact ⟨s, l, rfl, hm⟩
  | .array items, h => by
      have hall : ∀ w ∈ items, (o.infer w).Accepts o w := accepts_inferAll o h
      rw [o.infer_eq_summary h, observe, summary_array, observeAll_eq_map]
      split
      · rename_i he
        rw [List.map_eq_nil_iff.mp he]
        rfl
      · exact ⟨items, rfl, fun w hw =>
          accepts_summary_of_mem hw (allHaveDistinctNames_iff.mp h w hw) (hall w hw)⟩
  | .object fields, h => by
      obtain ⟨-, hf⟩ := (Bool.and_eq_true _ _).mp h
      refine ⟨fields, rfl, accepts_inferFields o hf, fun f hf _ => ?_⟩
      rw [← o.names_inferFields]
      exact List.mem_map_of_mem hf

/-- Each of several samples is accepted by its own schema. -/
theorem accepts_inferAll (o : Options) : ∀ {vs : List Sample}, allHaveDistinctNames vs = true →
    ∀ v ∈ vs, (o.infer v).Accepts o v
  | [], _ => by simp
  | v :: vs, h => by
      obtain ⟨hv, hvs⟩ := (Bool.and_eq_true _ _).mp h
      exact List.forall_mem_cons.mpr ⟨accepts_infer o hv, accepts_inferAll o hvs⟩

theorem accepts_inferFields (o : Options) : ∀ {fs : List (String × Sample)},
    fieldsHaveDistinctNames fs = true → ∀ m ∈ fs, acceptsMember o (o.inferFields fs) m
  | [], _ => by simp
  | (n, v) :: fs, h => by
      obtain ⟨hv, hfs⟩ := (Bool.and_eq_true _ _).mp h
      refine List.forall_mem_cons.mpr ⟨Or.inl ⟨rfl, accepts_infer o hv⟩, fun m hm => ?_⟩
      exact Or.inr (accepts_inferFields o hfs m hm)

end

theorem accepts_inferMerged (o : Options) (parallel : Bool) {samples : List Sample}
    (h : ∀ v ∈ samples, v.hasDistinctNames = true) {v : Sample} (hv : v ∈ samples) :
    (o.inferMerged parallel samples).Accepts o v := by
  rw [o.inferMerged_eq_summary parallel h]
  exact accepts_summary_of_mem hv (h v hv) (o.accepts_infer (h v hv))

end Options

/-- **Schemas accept what they were inferred from.**  The merge of a run, parallel or not, accepts
every sample of the run, and the merge of two reachable schemas accepts what either of them
accepts. -/
theorem accepts_merged (o : Options) {samples : List Sample}
    (h : ∀ v ∈ samples, v.hasDistinctNames = true) :
    (∀ v ∈ samples, ∀ parallel, (o.inferMerged parallel samples).Accepts o v) ∧
      (∀ (s : Settings) (r : RunRequest) (i : Inferred), s.optionsFor r = .ok o →
        s.run r samples = .ok i → ∀ v ∈ samples, i.merged.Accepts o v) ∧
      ∀ {a b : Schema}, a.Reachable → b.Reachable →
        ∀ v, a.Accepts o v ∨ b.Accepts o v → (a.merge b).Accepts o v := by
  refine ⟨fun v hv parallel => o.accepts_inferMerged parallel h hv, fun s r i ho hi v hv => ?_,
    fun ha hb v hv => ?_⟩
  · rw [Settings.merged_of_run ho hi]
    exact o.accepts_inferMerged _ h hv
  · obtain ⟨xs, hx, rfl⟩ := ha.exists_summary
    obtain ⟨ys, hy, rfl⟩ := hb.exists_summary
    rw [merge_summary hx hy]
    rcases hv with hv | hv
    · exact grows v (List.subset_append_left xs ys) hx id hv
    · exact grows v (List.subset_append_right xs ys) hy id hv

theorem accepts_merged_of_mixed :
    (({} : Options).inferMerged true mixedSamples).Accepts {} (.int 10000000000000000000) ∧
      (Schema.array .int false).Accepts {} (.array [.int 3]) ∧
      ((({} : Options).infer (.array [])).merge (({} : Options).infer (.array [.null]))).Accepts {}
        (.array []) := by
  have hm : ∀ v ∈ mixedSamples, v.hasDistinctNames = true := by decide
  refine ⟨(accepts_merged {} hm).1 _ (by simp [mixedSamples]) true, ?_, ?_⟩
  · exact (accepts_merged {} (by decide)).2.1 {} { options := some {} } _ rfl run_array _
      List.mem_cons_self
  · exact (accepts_merged {} hm).2.2 (.infer _ rfl) (.infer _ rfl) _ (Or.inl rfl)

end SampleSchema
