import SampleSchema.Proofs.Diagnostics
import SampleSchema.Proofs.NamingRuns

/-!
# Values of one kind

Where all values besides null are numbers, or all of them are texts, their summary is the class of
those, made optional if one of the values is null (`nullOr_summary_of_numbers`,
`nullOr_summary_of_texts`).  Such a schema has neither unions nor objects.  Where all values are
objects, so is their summary (`summary_of_objects`).

A run over samples whose summary has no unions records no conflict, and it fails only where the
summary cannot be named (`Settings.run_of_named`).
-/

namespace SampleSchema
open Observation

/-! ### Null and leaves -/

/-- Whether a schema is null, one of some types, or one of them made optional. -/
def Schema.NullOr (ts : List Schema) (t : Schema) : Prop :=
  t = .null ∨ t ∈ ts ∨ ∃ u ∈ ts, t = .optional u

/-- The types of numbers. -/
def numberTypes : List Schema := [.int, .float]

/-- The types of texts. -/
def textTypes : List Schema := [.string false, .string true, .timestamp]

/-- Whether there is neither a union nor an object in a schema. -/
structure Schema.IsPlain (t : Schema) : Prop where
  unions  : ∀ path, t.unions path = []
  objects : t.objects = []

/-- Fields of plain types hold neither unions nor objects. -/
theorem isPlain_fields {fields : List (Field Schema)} (h : ∀ f ∈ fields, f.type.IsPlain) :
    (∀ path, fieldUnions path fields = []) ∧ objectsOfFields fields = [] := by
  constructor
  · refine fun path => List.eq_nil_iff_forall_not_mem.mpr fun u hu => ?_
    obtain ⟨f, hf, hu⟩ := mem_fieldUnions_iff.mp hu
    rw [(h f hf).unions] at hu
    cases hu
  · refine List.eq_nil_iff_forall_not_mem.mpr fun u hu => ?_
    obtain ⟨f, hf, hu⟩ := mem_objectsOfFields_iff.mp hu
    rw [(h f hf).objects] at hu
    cases hu

theorem isPlain_of_mem_numberTypes : ∀ t ∈ numberTypes, t.IsPlain := by
  rintro _ (_ | ⟨_, _ | ⟨_, ⟨⟩⟩⟩) <;> exact ⟨fun _ => rfl, rfl⟩

theorem isPlain_of_mem_textTypes : ∀ t ∈ textTypes, t.IsPlain := by
  rintro _ (_ | ⟨_, _ | ⟨_, _ | ⟨_, ⟨⟩⟩⟩⟩) <;> exact ⟨fun _ => rfl, rfl⟩

/-- A plain type stays plain if it may be null. -/
theorem Schema.NullOr.isPlain {ts : List Schema} {t : Schema} (h : t.NullOr ts)
    (hts : ∀ u ∈ ts, u.IsPlain) : t.IsPlain := by
  obtain rfl | ht | ⟨u, hu, rfl⟩ := h
  · exact ⟨fun _ => rfl, rfl⟩
  · exact hts t ht
  · exact ⟨(hts u hu).unions, (hts u hu).objects⟩

/-- A choice of at most one type is null or that type. -/
theorem Schema.nullOr_choice {ts : List Schema} {nullable : Bool} {u : Option Schema}
    (h : ∀ t ∈ u, t ∈ ts) : (Schema.choice nullable u.toList).NullOr ts := by
  cases u with
  | none => exact .inl rfl
  | some t =>
      cases nullable
      · exact .inr (.inl (h t rfl))
      · exact .inr (.inr ⟨t, h t rfl, rfl⟩)

namespace Observation

variable {xs : List Observation}

theorem summary_nil : summary [] = .null := by
  rw [summary, summaryWith_eq_assemble]
  rfl

/-- The parts of values that are neither truth values nor arrays nor objects. -/
theorem partsOf_of_leaves (h : ∀ x ∈ xs, x = .null ∨ (∃ p, x = .number p) ∨ ∃ p, x = .string p) :
    partsOf xs =
      { number := NumberPart.ofAll (numbers xs), string := StringPart.ofAll (texts xs) } := by
  have hbool : xs.any isBool = false := Bool.eq_false_iff.mpr fun hx => by
    simpa using h _ (any_isBool_iff.mp hx)
  have harrays : arrays xs = [] := List.eq_nil_iff_forall_not_mem.mpr fun as ha => by
    simpa using h _ (mem_arrays.mp ha)
  have hobjects : objects xs = [] := List.eq_nil_iff_forall_not_mem.mpr fun fs ho => by
    simpa using h _ (mem_objects.mp ho)
  rw [partsOf, hbool, arrayPart_eq_none_iff.mpr harrays, objectPart_eq_none_iff.mpr hobjects]

/-- The summary of numbers and nulls. -/
theorem summary_of_numbers (h : ∀ x ∈ xs, x = .null ∨ ∃ p, x = .number p) :
    summary xs = .choice (xs.any isNull)
      ((NumberPart.ofAll (numbers xs)).map NumberPart.toSchema).toList := by
  have htexts : texts xs = [] := List.eq_nil_iff_forall_not_mem.mpr fun p hp => by
    simpa using h _ (mem_texts.mp hp)
  rw [summary, summaryWith, Bool.false_or, variants_eq_toList,
    partsOf_of_leaves fun x hx => (h x hx).imp_right .inl, htexts]
  simp [Parts.toList, StringPart.ofAll]

/-- The summary of texts and nulls. -/
theorem summary_of_texts (h : ∀ x ∈ xs, x = .null ∨ ∃ p, x = .string p) :
    summary xs = .choice (xs.any isNull)
      ((StringPart.ofAll (texts xs)).map StringPart.toSchema).toList := by
  have hnumbers : numbers xs = [] := List.eq_nil_iff_forall_not_mem.mpr fun p hp => by
    simpa using h _ (mem_numbers.mp hp)
  rw [summary, summaryWith, Bool.false_or, variants_eq_toList,
    partsOf_of_leaves fun x hx => (h x hx).imp_right .inr, hnumbers]
  simp [Parts.toList, NumberPart.ofAll]

/-- Numbers and nulls are summarized by a number type, which may be null. -/
theorem nullOr_summary_of_numbers (h : ∀ x ∈ xs, x = .null ∨ ∃ p, x = .number p) :
    (summary xs).NullOr numberTypes := by
  rw [summary_of_numbers h]
  refine Schema.nullOr_choice fun t ht => ?_
  obtain ⟨p, -, rfl⟩ := Option.map_eq_some_iff.mp ht
  cases p <;> simp [NumberPart.toSchema, numberTypes]

/-- Texts and nulls are summarized by a text type, which may be null. -/
theorem nullOr_summary_of_texts (h : ∀ x ∈ xs, x = .null ∨ ∃ p, x = .string p) :
    (summary xs).NullOr textTypes := by
  rw [summary_of_texts h]
  refine Schema.nullOr_choice fun t ht => ?_
  obtain ⟨p, -, rfl⟩ := Option.map_eq_some_iff.mp ht
  cases p <;> simp [StringPart.toSchema, textTypes]

/-- The summary of objects is an object. -/
theorem summary_of_objects {os : List (List (String × Observation))} (hne : os ≠ []) :
    summary (os.map .object) = .object none os.length ((names os).map (fieldOf os)) := by
  have hnull : (os.map Observation.object).any isNull = false := by simp [isNull]
  have hbool : (os.map Observation.object).any isBool = false := by simp [isBool]
  have hnumbers : numbers (os.map .object) = [] := List.filterMap_eq_nil_iff.mpr (by simp [number?])
  have htexts : texts (os.map .object) = [] := List.filterMap_eq_nil_iff.mpr (by simp [string?])
  have harrays : arrays (os.map .object) = [] := List.filterMap_eq_nil_iff.mpr (by simp [items?])
  have hobjects : objects (os.map .object) = os := by
    simp [objects, fields?, List.filterMap_map, Function.comp_def]
  rw [summary, summaryWith, Bool.false_or, variants_eq_toList, hnull, partsOf, hbool, hnumbers,
    htexts, arrayPart_eq_none_iff.mpr harrays, objectPart, hobjects, if_neg hne]
  rfl

/-- Timestamps alone are timestamps together. -/
theorem summary_of_timestamps (hne : xs ≠ []) (h : ∀ x ∈ xs, x = .string .timestamp) :
    summary xs = .timestamp := by
  have hnull : xs.any isNull = false := Bool.eq_false_iff.mpr fun hx => by
    cases h _ (any_isNull_iff.mp hx)
  have htexts : texts xs ≠ [] := fun hnil => by
    obtain ⟨x, hx⟩ := List.exists_mem_of_ne_nil xs hne
    have : StringPart.timestamp ∈ texts xs := mem_texts.mpr (h x hx ▸ hx)
    rw [hnil] at this
    cases this
  have hall : (texts xs).all (· = .timestamp) = true := List.all_eq_true.mpr fun p hp => by
    cases h _ (mem_texts.mp hp)
    rfl
  rw [summary_of_texts fun x hx => .inr ⟨_, h x hx⟩, hnull, StringPart.ofAll, if_neg htexts,
    if_pos hall]
  rfl

end Observation

/-! ### Runs without conflicts -/

theorem Accounts.eq_nil {us : List (String × List Schema)} {cs : List Conflict}
    (h : Accounts us cs []) : cs = [] := by
  refine List.eq_nil_iff_forall_not_mem.mpr fun c hc => ?_
  obtain ⟨u, hu, -⟩ := (h.genuine c hc).2
  cases hu

section
variable {samples : List Sample} (h : ∀ v ∈ samples, v.hasDistinctNames = true)
include h

theorem Options.inferConflicts_eq_nil {o : Options}
    (hu : (summary (samples.map o.observe)).unions "" = []) (parallel : Bool) :
    o.inferConflicts parallel samples = [] := by
  have haccounts := o.accounts_inferConflicts parallel h
  rw [o.inferMerged_eq_summary parallel h, hu] at haccounts
  exact haccounts.eq_nil

/-- A run over samples whose summary has no unions gives the summary under a name, with no
conflicts. -/
theorem Settings.run_of_named {s : Settings} {r : RunRequest} {o : Options} {schema : NamedSchema}
    (ho : s.optionsFor r = .ok o) (hw : 0 ≤ r.maxWorkers.getD 0)
    (hu : (summary (samples.map o.observe)).unions "" = [])
    (hn : (summary (samples.map o.observe)).named (givenOr r.rootName s.rootTypeName) = .ok schema) :
    s.run r samples = .ok ⟨schema, summary (samples.map o.observe), [], samples.length⟩ := by
  rw [run_eq ho, decide_eq_false (Int.not_lt.mpr hw), Bool.and_false, if_neg Bool.false_ne_true,
    o.inferMerged_eq_summary _ h, hn, Options.inferConflicts_eq_nil h hu]

end

end SampleSchema
