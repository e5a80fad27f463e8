import SampleSchema.Proofs.Assembly
import SampleSchema.Proofs.Observation

/-!
# The summary of observations

`summary xs` says in one go what the values at a position have in common: null is admitted when one
of them is null, there is one type for each kind of value that occurs, items of arrays are
summarised all together, and every field is summarised from the values that stand under its name.
Nothing is merged.

`partsOf xs` are the parts of the summary, one bucket at a time (`variants_eq_toList`).
-/

namespace SampleSchema

/-- The class of some numbers: integers when all of them are. -/
def NumberPart.ofAll (ps : List NumberPart) : Option NumberPart :=
  if ps = [] then none
  else some (if ps.all (· = .int) then .int else .float)

/-- The class of some texts: timestamps or numeric texts when all of them are. -/
def StringPart.ofAll (ps : List StringPart) : Option StringPart :=
  if ps = [] then none
  else some (if ps.all (· = .timestamp) then .timestamp
    else if ps.all (· = .numeric) then .numeric else .plain)

theorem NumberPart.ofAll_eq_none_iff {ps : List NumberPart} : ofAll ps = none ↔ ps = [] := by
  rw [ofAll]
  split <;> simp [*]

theorem StringPart.ofAll_eq_none_iff {ps : List StringPart} : ofAll ps = none ↔ ps = [] := by
  rw [ofAll]
  split <;> simp [*]

namespace Observation

/-- The types of some values other than null, one for each kind of value that occurs. -/
def variants (xs : List Observation) : List Schema :=
  (if xs.any isBool then [.bool] else []) ++
  ((NumberPart.ofAll (numbers xs)).map NumberPart.toSchema).toList ++
  ((StringPart.ofAll (texts xs)).map StringPart.toSchema).toList ++
  (if _h : arrays xs = [] then []
    else if (arrays xs).all List.isEmpty then [.array .null true]
    else [.array (.choice ((items xs).any isNull) (variants (items xs))) false]) ++
  (if _h : objects xs = [] then []
    else [.object none (objects xs).length ((names (objects xs)).map fun name =>
      let seen := valuesUnder name (objects xs)
      let missing := decide (seen.length < (objects xs).length)
      { name     := name
        type     := .choice (missing || seen.any isNull) (variants seen)
        optional := missing
        observed := seen.length
        total    := (objects xs).length })])
termination_by sizeOf xs
decreasing_by
  · exact sizeOf_items_lt _h
  · exact sizeOf_valuesUnder_lt name _h

/-- The schema of some values; `absent` says that null is admitted whatever they are. -/
def summaryWith (absent : Bool) (xs : List Observation) : Schema :=
  .choice (absent || xs.any isNull) (variants xs)

/-- The schema of some values. -/
def summary (xs : List Observation) : Schema := summaryWith false xs

/-! ### The parts of a summary -/

/-- The field of a name of objects. -/
def fieldOf (os : List (List (String × Observation))) (name : String) : Field Schema where
  name     := name
  type     := summaryWith (decide ((valuesUnder name os).length < os.length)) (valuesUnder name os)
  optional := decide ((valuesUnder name os).length < os.length)
  observed := (valuesUnder name os).length
  total    := os.length

/-- The part for arrays. -/
def arrayPart (xs : List Observation) : Option ArrayPart :=
  if arrays xs = [] then none
  else if items xs = [] then some ⟨.null, true⟩
  else some ⟨summary (items xs), false⟩

/-- The part for objects. -/
def objectPart (xs : List Observation) : Option ObjectPart :=
  if objects xs = [] then none
  else some ⟨none, (objects xs).length, (names (objects xs)).map (fieldOf (objects xs))⟩

/-- There is no array part where no arrays are seen. -/
theorem arrayPart_eq_none_iff {xs : List Observation} : arrayPart xs = none ↔ arrays xs = [] := by
  rw [arrayPart]
  split
  · simp [*]
  · split <;> simp [*]

/-- There is no object part where no objects are seen. -/
theorem objectPart_eq_none_iff {xs : List Observation} :
    objectPart xs = none ↔ objects xs = [] := by
  rw [objectPart]
  split <;> simp [*]

/-- The parts of the summary of some values. -/
def partsOf (xs : List Observation) : Parts where
  bool   := xs.any isBool
  number := NumberPart.ofAll (numbers xs)
  string := StringPart.ofAll (texts xs)
  array  := arrayPart xs
  object := objectPart xs

theorem all_isEmpty_arrays_iff {xs : List Observation} :
    (arrays xs).all List.isEmpty = true ↔ items xs = [] := by
  simp only [items, List.flatten_eq_nil_iff, List.all_eq_true, List.isEmpty_iff]

/-- The variants of a summary are the schemas of its parts. -/
theorem variants_eq_toList (xs : List Observation) : variants xs = (partsOf xs).toList := by
  rw [variants, Parts.toList]
  congr 1
  · congr 1
    rw [partsOf, arrayPart]
    by_cases h : arrays xs = []
    · rw [dif_pos h, if_pos h]
      rfl
    · by_cases hi : items xs = []
      · rw [dif_neg h, if_pos (all_isEmpty_arrays_iff.mpr hi), if_neg h, if_pos hi]
        rfl
      · rw [dif_neg h, if_neg (hi ∘ all_isEmpty_arrays_iff.mp), if_neg h, if_neg hi]
        rfl
  · rw [partsOf, objectPart]
    by_cases h : objects xs = []
    · rw [dif_pos h, if_pos h]
      rfl
    · rw [dif_neg h, if_neg h]
      rfl

/-- A summary is assembled from its parts. -/
theorem summaryWith_eq_assemble (absent : Bool) (xs : List Observation) :
    summaryWith absent xs = (partsOf xs).assemble (absent || xs.any isNull) := by
  rw [summaryWith, variants_eq_toList, Parts.assemble_eq_choice]

/-- The parts of a summary are those of what is seen. -/
theorem parts_summaryWith (absent : Bool) (xs : List Observation) :
    (summaryWith absent xs).parts = partsOf xs := by
  rw [summaryWith_eq_assemble, Parts.parts_assemble]

/-- A summary that may be null is one with something missing. -/
theorem makeOptional_summaryWith (absent : Bool) (xs : List Observation) :
    (summaryWith absent xs).makeOptional = summaryWith true xs := by
  rw [summaryWith_eq_assemble, summaryWith_eq_assemble, Parts.makeOptional_assemble, Bool.true_or]

end Observation

end SampleSchema
