import SampleSchema.Proofs.Coarsening
import SampleSchema.Proofs.Diagnostics
import SampleSchema.Proofs.Layouts

/-!
# Options act on their own leaves

Options that try fewer timestamp layouts, and count fewer integers as such, give a coarser schema of
the same samples (`coarsens_of_within`): some timestamps become plain texts, some integers become
floats, and nothing else changes.  The conflicts stand at the same paths.

Options see the same arrays and objects in samples, whatever they are; all they decide is the class
of an integer or of a text.  A text that is no timestamp any more is a plain one, since no layout
describes a text that looks like a number.
-/

namespace SampleSchema
open Observation

/-! ### What all options see -/

namespace Sample

/-- The items of an array. -/
def items? : Sample → Option (List Sample)
  | .array items => some items
  | _ => none

/-- The members of an object. -/
def fields? : Sample → Option (List (String × Sample))
  | .object fields => some fields
  | _ => none

end Sample

namespace Options

/-- The fields of an object sample as inference sees them. -/
def observeMembers (o : Options) (fields : List (String × Sample)) :
    List (String × Observation) := fields.map fun f => (f.1, o.observe f.2)

section
variable (o : Options)

theorem items?_observe (v : Sample) : (o.observe v).items? = v.items?.map (·.map o.observe) := by
  cases v with
  | array items => exact congrArg some (o.observeAll_eq_map items)
  | _ => rfl

theorem fields?_observe (v : Sample) : (o.observe v).fields? = v.fields?.map o.observeMembers := by
  cases v with
  | object fields => exact congrArg some (o.observeFields_eq_map fields)
  | _ => rfl

/-- The arrays that are seen are those among the samples. -/
theorem arrays_observed (vs : List Sample) :
    arrays (vs.map o.observe) = (vs.filterMap Sample.items?).map (·.map o.observe) := by
  rw [arrays, List.filterMap_map, List.map_filterMap]
  exact List.filterMap_congr fun v _ => o.items?_observe v

/-- The items that are seen are those of the samples. -/
theorem items_observed (vs : List Sample) :
    items (vs.map o.observe) = (vs.filterMap Sample.items?).flatten.map o.observe := by
  rw [items, arrays_observed, List.map_flatten]

/-- The objects that are seen are those among the samples. -/
theorem objects_observed (vs : List Sample) :
    objects (vs.map o.observe) = (vs.filterMap Sample.fields?).map o.observeMembers := by
  rw [objects, List.filterMap_map, List.map_filterMap]
  exact List.filterMap_congr fun v _ => o.fields?_observe v

/-- The names that are seen do not depend on the options. -/
theorem names_observed (ms : List (List (String × Sample))) :
    names (ms.map o.observeMembers) = (ms.flatMap fun fields => fields.map Prod.fst).eraseDups := by
  rw [names, List.flatMap_map]
  congr 2
  funext fields
  rw [observeMembers, List.map_map]
  rfl

theorem lookup_observed (name : String) : ∀ fields : List (String × Sample),
    (o.observeMembers fields).lookup name = (fields.lookup name).map o.observe
  | [] => rfl
  | (n, v) :: fields => by
      rw [observeMembers, List.map_cons, List.lookup_cons, List.lookup_cons]
      cases name == n
      · exact lookup_observed name fields
      · rfl

/-- The values under a name are seen one by one. -/
theorem valuesUnder_observed (name : String) (ms : List (List (String × Sample))) :
    valuesUnder name (ms.map o.observeMembers) =
      (ms.filterMap (List.lookup name)).map o.observe := by
  rw [valuesUnder, List.filterMap_map, List.map_filterMap]
  exact List.filterMap_congr fun fields _ => o.lookup_observed name fields

end

/-! ### Fewer layouts and fewer integers -/

/-- Whether options try some of the layouts of others, and have their integers in the range of
these. -/
structure Within (o' o : Options) : Prop where
  layouts : o'.layouts ⊆ o.layouts
  intMin  : o.intMin ≤ o'.intMin
  intMax  : o'.intMax ≤ o.intMax

namespace Within
variable {o o' : Options} (h : o'.Within o)
include h

/-- A text without the layout that describes it is a plain one. -/
theorem textPart (s : String) : (o.textPart s).CoarsensTo (o'.textPart s) := by
  have htime : ∀ l, meaning? o'.layouts s = some (.timestamp l) →
      meaning? o.layouts s = some (.timestamp l) := fun l hl => by
    obtain ⟨hmem, haccepts⟩ := meaning?_eq_timestamp_iff.mp hl
    exact meaning?_eq_timestamp_iff.mpr ⟨h.layouts hmem, haccepts⟩
  have hnumber : meaning? o'.layouts s = some .number ↔ meaning? o.layouts s = some .number := by
    rw [meaning?_eq_number_iff, meaning?_eq_number_iff]
  rw [Options.textPart, Options.textPart]
  cases hm' : meaning? o'.layouts s with
  | none =>
      cases hm : meaning? o.layouts s with
      | none => exact .inl rfl
      | some m =>
          cases m with
          | timestamp _ => exact .inr ⟨rfl, rfl⟩
          | number =>
              rw [hnumber.mpr hm] at hm'
              cases hm'
  | some m =>
      cases m with
      | timestamp l =>
          rw [htime l hm']
          exact .inl rfl
      | number =>
          rw [hnumber.mp hm']
          exact .inl rfl

theorem number?_observe (v : Sample) :
    Option.Rel NumberPart.CoarsensTo (o.observe v).number? (o'.observe v).number? := by
  cases v with
  | int n =>
      have hmin := h.intMin
      have hmax := h.intMax
      refine .some ?_
      by_cases hn' : o'.intMin ≤ n ∧ n ≤ o'.intMax
      · rw [if_pos hn', if_pos (by omega)]
        exact .inl rfl
      · rw [if_neg hn']
        split
        · exact .inr ⟨rfl, rfl⟩
        · exact .inl rfl
  | float x => exact .some (.inl rfl)
  | _ => exact .none

theorem string?_observe (v : Sample) :
    Option.Rel StringPart.CoarsensTo (o.observe v).string? (o'.observe v).string? := by
  cases v with
  | string s => exact .some (h.textPart s)
  | _ => exact .none

end Within

end Options

/-! ### Summaries of what options see -/

theorem any_map_observe {f : Observation → Bool} (o o' : Options)
    (hf : ∀ v, f (o.observe v) = f (o'.observe v)) (vs : List Sample) :
    (vs.map o.observe).any f = (vs.map o'.observe).any f := by
  rw [List.any_map, List.any_map]
  exact congrArg vs.any (funext hf)

/-- Values of one kind that coarsen one by one. -/
theorem filterMap_map_observe {α : Type} {R : α → α → Prop} {f : Observation → Option α}
    {o o' : Options} (hf : ∀ v, Option.Rel R (f (o.observe v)) (f (o'.observe v)))
    (vs : List Sample) :
    List.Forall₂ R ((vs.map o.observe).filterMap f) ((vs.map o'.observe).filterMap f) := by
  rw [List.filterMap_map, List.filterMap_map]
  have heq : List.Forall₂ Eq vs vs := List.forall₂_same.mpr fun _ _ => rfl
  refine List.rel_filterMap ?_ heq
  rintro v _ rfl
  exact hf v

/-- Fields of the same names and counts, with types that coarsen one by one. -/
theorem fieldsCoarsenTo_map {os ps : List (List (String × Observation))}
    (hlen : os.length = ps.length)
    (hcount : ∀ name, (valuesUnder name os).length = (valuesUnder name ps).length)
    (htype : ∀ name absent, (summaryWith absent (valuesUnder name os)).CoarsensTo
      (summaryWith absent (valuesUnder name ps))) :
    ∀ names : List String, FieldsCoarsenTo (names.map (fieldOf os)) (names.map (fieldOf ps))
  | [] => .nil
  | name :: names => by
      rw [List.map_cons, List.map_cons, fieldOf, fieldOf, hlen, hcount]
      exact .cons (htype name _) (fieldsCoarsenTo_map hlen hcount htype names)

/-- **What is seen under restricted options has a coarser summary.** -/
theorem summaryWith_coarsens {o o' : Options} (h : o'.Within o) (absent : Bool)
    (vs : List Sample) :
    (summaryWith absent (vs.map o.observe)).CoarsensTo
      (summaryWith absent (vs.map o'.observe)) := by
  rw [summaryWith_eq_assemble, summaryWith_eq_assemble,
    any_map_observe (f := isNull) o o' fun v => by cases v <;> rfl]
  refine Schema.CoarsensTo.isCongruence.assemble _ ?_ ?_ ?_ ?_ ?_
  · exact any_map_observe o o' (fun v => by cases v <;> rfl) vs
  · exact NumberPart.ofAll_coarsens (filterMap_map_observe h.number?_observe vs)
  · exact StringPart.ofAll_coarsens (filterMap_map_observe h.string?_observe vs)
  · show Option.Rel _ (arrayPart _) (arrayPart _)
    have hnil : arrays (vs.map o.observe) = [] ↔ arrays (vs.map o'.observe) = [] := by
      rw [o.arrays_observed, o'.arrays_observed, List.map_eq_nil_iff, List.map_eq_nil_iff]
    have hitems : items (vs.map o.observe) = [] ↔ items (vs.map o'.observe) = [] := by
      rw [o.items_observed, o'.items_observed, List.map_eq_nil_iff, List.map_eq_nil_iff]
    rw [arrayPart, arrayPart]
    simp only [← hnil, ← hitems]
    by_cases ha : arrays (vs.map o.observe) = []
    · rw [if_pos ha, if_pos ha]
      exact .none
    rw [if_neg ha, if_neg ha]
    split
    · exact .some (.refl _)
    · refine .some (.array ?_)
      rw [o.items_observed, o'.items_observed]
      exact summaryWith_coarsens h false _
  · show Option.Rel _ (objectPart _) (objectPart _)
    have hlen : (objects (vs.map o.observe)).length = (objects (vs.map o'.observe)).length := by
      rw [o.objects_observed, o'.objects_observed, List.length_map, List.length_map]
    have hnil : objects (vs.map o.observe) = [] ↔ objects (vs.map o'.observe) = [] := by
      rw [← List.length_eq_zero_iff, ← List.length_eq_zero_iff, hlen]
    have hnames : names (objects (vs.map o.observe)) = names (objects (vs.map o'.observe)) := by
      rw [o.objects_observed, o'.objects_observed, o.names_observed, o'.names_observed]
    rw [objectPart, objectPart]
    simp only [← hnil]
    by_cases ho : objects (vs.map o.observe) = []
    · rw [if_pos ho, if_pos ho]
      exact .none
    rw [if_neg ho, if_neg ho, hlen, hnames]
    refine .some (.object (fieldsCoarsenTo_map hlen (fun name => ?_) (fun name absent => ?_) _))
    · rw [o.objects_observed, o'.objects_observed, o.valuesUnder_observed, o'.valuesUnder_observed,
        List.length_map, List.length_map]
    · rw [o.objects_observed, o'.objects_observed, o.valuesUnder_observed, o'.valuesUnder_observed]
      exact summaryWith_coarsens h absent _
termination_by sizeOf (vs.map o.observe)
decreasing_by
  · rw [← o.items_observed]
    exact sizeOf_items_lt ha
  · rw [← o.valuesUnder_observed, ← o.objects_observed]
    exact sizeOf_valuesUnder_lt name ho

/-! ### Two runs -/

/-- **Options act on their own leaves.**  Under options that try fewer layouts and have a smaller
range of integers, the merge of the same samples is the same but for timestamps that become plain
texts and integers that become floats, and there are conflicts at the same paths.  So it is with two
runs that succeed, parallel or not. -/
theorem coarsens_of_within {o o' : Options} (h : o'.Within o) {samples : List Sample}
    (hsamples : ∀ v ∈ samples, v.hasDistinctNames = true) :
    (∀ parallel parallel' : Bool,
      (o.inferMerged parallel samples).CoarsensTo (o'.inferMerged parallel' samples) ∧
        ∀ path, (∃ c ∈ o.inferConflicts parallel samples, c.path = path) ↔
          ∃ c ∈ o'.inferConflicts parallel' samples, c.path = path) ∧
    ∀ (s s' : Settings) (r r' : RunRequest) (i j : Inferred), s.optionsFor r = .ok o →
      s'.optionsFor r' = .ok o' → s.run r samples = .ok i → s'.run r' samples = .ok j →
        i.merged.CoarsensTo j.merged ∧
          ∀ path, (∃ c ∈ i.conflicts, c.path = path) ↔ ∃ c ∈ j.conflicts, c.path = path := by
  have hsummary : (summary (samples.map o.observe)).CoarsensTo
      (summary (samples.map o'.observe)) := summaryWith_coarsens h false samples
  have hmerged : ∀ parallel parallel' : Bool,
      (o.inferMerged parallel samples).CoarsensTo (o'.inferMerged parallel' samples) ∧
        ∀ path, (∃ c ∈ o.inferConflicts parallel samples, c.path = path) ↔
          ∃ c ∈ o'.inferConflicts parallel' samples, c.path = path := by
    intro parallel parallel'
    rw [o.inferMerged_eq_summary parallel hsamples, o'.inferMerged_eq_summary parallel' hsamples]
    refine ⟨hsummary, fun path => ?_⟩
    have hpaths := hsummary.paths_unions ""
    rw [o.paths_inferConflicts hsamples, o'.paths_inferConflicts hsamples,
      ← List.mem_map, ← List.mem_map, hpaths]
  refine ⟨hmerged, fun s s' r r' i j hr hr' hi hj => ?_⟩
  rw [Settings.merged_of_run hr hi, Settings.merged_of_run hr' hj,
    Settings.conflicts_of_run hr hi, Settings.conflicts_of_run hr' hj]
  exact hmerged _ _

/-- Objects with a date and an integer, seen without layouts and with a range of one digit; and runs
over a larger integer. -/
theorem coarsens_of_digits :
    (({} : Options).inferMerged false
        [.object [("at", .string "2024-03-01"), ("id", .int 12)],
          .object [("id", .int 3)]]).CoarsensTo
      ((⟨[], 0, 9, by decide⟩ : Options).inferMerged true
        [.object [("at", .string "2024-03-01"), ("id", .int 12)], .object [("id", .int 3)]]) ∧
      Schema.int.CoarsensTo .float := by
  have hwithin : Options.Within ⟨[], 0, 9, by decide⟩ {} :=
    ⟨List.nil_subset _, by decide, by decide⟩
  have hrun : ({} : Settings).run { options := some {} } [.int 12] =
      .ok ⟨⟨.int, []⟩, .int, [], 1⟩ := by rfl
  have hrun' : ({} : Settings).run { options := some ⟨[], 0, 9, by decide⟩ } [.int 12] =
      .ok ⟨⟨.float, []⟩, .float, [], 1⟩ := by rfl
  exact ⟨((coarsens_of_within hwithin (by decide)).1 false true).1,
    ((coarsens_of_within hwithin (by decide)).2 {} {} _ _ _ _ rfl rfl hrun hrun').1⟩

end SampleSchema
