import SampleSchema.Proofs.Summary

/-!
# Merging summaries

Merging the summaries of two lists of values gives the summary of the lists appended
(`appends`, `merge_summary`).  So merges need no theory of their own: how they are nested and which
lists they see at a time does not matter, because appending is associative.

The proof goes through the parts.  Numbers and texts are classes of a finite type; for arrays and
objects the statement is used at the items and at the values under each name, which are smaller
(`Appends` is the statement for a given first list).  Both lists have to have a value: the summary
of no values is null, and merging null admits null.
-/

namespace SampleSchema

/-! ### Numbers and texts -/

/-- What is made of lists is merged as they are appended if it is for lists that have elements. -/
theorem append_eq_merge {α β : Type} {f : List α → Option β} {op : β → β → β} (hnil : f [] = none)
    (happend : ∀ ps qs, ps ≠ [] → qs ≠ [] → f (ps ++ qs) = Option.merge op (f ps) (f qs))
    (ps qs : List α) : f (ps ++ qs) = Option.merge op (f ps) (f qs) := by
  by_cases hp : ps = []
  · rw [hp, hnil, Option.merge_none_left, List.nil_append]
  by_cases hq : qs = []
  · rw [hq, hnil, Option.merge_none_right, List.append_nil]
  exact happend ps qs hp hq

theorem NumberPart.ofAll_append (ps qs : List NumberPart) :
    NumberPart.ofAll (ps ++ qs) =
      Option.merge NumberPart.merge (NumberPart.ofAll ps) (NumberPart.ofAll qs) := by
  refine append_eq_merge rfl (fun ps qs hp hq => ?_) ps qs
  have hpq : ps ++ qs ≠ [] := List.append_ne_nil_of_left_ne_nil hp qs
  rw [ofAll, ofAll, ofAll, if_neg hp, if_neg hq, if_neg hpq, Option.merge_some_some,
    List.all_append]
  cases ps.all (· = .int) <;> cases qs.all (· = .int) <;> rfl

/-- Texts that are all timestamps are not all numeric. -/
theorem StringPart.all_numeric_eq_false {ps : List StringPart} (hp : ps ≠ [])
    (h : ps.all (· = .timestamp) = true) : ps.all (· = .numeric) = false := by
  obtain ⟨p, hm⟩ := List.exists_mem_of_ne_nil ps hp
  have ht : p = .timestamp := of_decide_eq_true (List.all_eq_true.mp h p hm)
  exact List.all_eq_false.mpr ⟨p, hm, by simp [ht]⟩

theorem StringPart.ofAll_append (ps qs : List StringPart) :
    StringPart.ofAll (ps ++ qs) =
      Option.merge StringPart.merge (StringPart.ofAll ps) (StringPart.ofAll qs) := by
  refine append_eq_merge rfl (fun ps qs hp hq => ?_) ps qs
  have hpq : ps ++ qs ≠ [] := List.append_ne_nil_of_left_ne_nil hp qs
  -- no texts are of both classes at once, which leaves the cases in which the sides agree
  have htp := all_numeric_eq_false hp
  have htq := all_numeric_eq_false hq
  rw [ofAll, ofAll, ofAll, if_neg hp, if_neg hq, if_neg hpq, Option.merge_some_some,
    List.all_append, List.all_append]
  revert htp htq
  cases ps.all (· = .timestamp) <;> cases qs.all (· = .timestamp) <;>
    cases ps.all (· = .numeric) <;> cases qs.all (· = .numeric) <;> simp [merge]

namespace Observation

/-- Merging with the summary of `xs` is appending to `xs`. -/
def Appends (xs : List Observation) : Prop :=
  ∀ (ys : List Observation) (m n : Bool), xs ≠ [] → ys ≠ [] →
    (summaryWith m xs).merge (summaryWith n ys) = summaryWith (m || n) (xs ++ ys)

/-! ### Arrays -/

/-- Without arrays there are no items. -/
theorem items_eq_nil_of_arrays {xs : List Observation} (h : arrays xs = []) : items xs = [] := by
  rw [items, h, List.flatten_nil]

theorem arrayPart_append {xs : List Observation} (ih : Appends (items xs))
    (ys : List Observation) :
    arrayPart (xs ++ ys) = Option.merge ArrayPart.merge (arrayPart xs) (arrayPart ys) := by
  rw [arrayPart, arrayPart, arrayPart, arrays_append, items_append]
  by_cases hx : arrays xs = []
  · rw [hx, items_eq_nil_of_arrays hx, if_pos rfl, Option.merge_none_left, List.nil_append,
      List.nil_append]
  by_cases hy : arrays ys = []
  · rw [hy, items_eq_nil_of_arrays hy, if_pos rfl, Option.merge_none_right, List.append_nil,
      List.append_nil]
  have hxy : arrays xs ++ arrays ys ≠ [] := fun h => hx (List.append_eq_nil_iff.mp h).1
  rw [if_neg hx, if_neg hy, if_neg hxy]
  -- a placeholder on one side gives way to the other side
  by_cases hix : items xs = []
  · rw [if_pos hix, hix, List.nil_append]
    split <;> rfl
  by_cases hiy : items ys = []
  · rw [if_pos hiy, hiy, List.append_nil, if_neg hix]
    rfl
  rw [if_neg hix, if_neg hiy, if_neg fun h => hix (List.append_eq_nil_iff.mp h).1, summary,
    summary, summary, ← Bool.or_false false, ← ih (items ys) false false hix hiy]
  rfl

/-! ### Fields -/

/-- A summarized field with other counters may be null where it was missing. -/
theorem ofCounts_summaryWith (name : String) (absent : Bool) (xs : List Observation)
    (observed total : Nat) :
    Field.ofCounts name (summaryWith absent xs) observed total =
      ⟨name, summaryWith (absent || decide (observed < total)) xs, decide (observed < total),
        observed, total⟩ := by
  rw [Field.ofCounts, makeOptional_summaryWith]
  by_cases h : observed < total
  · rw [if_pos (Int.ofNat_lt.mpr h), decide_eq_true h, Bool.or_true]
  · rw [if_neg (h ∘ Int.ofNat_lt.mp), decide_eq_false h, Bool.or_false]

/-- A field is absent from one of the objects when it is absent on either side. -/
theorem absent_add {k l m n : Nat} (hk : k ≤ m) (hl : l ≤ n) :
    ((decide (k < m) || decide (l < n)) || decide (k + l < m + n)) = decide (k + l < m + n) := by
  rw [Bool.eq_iff_iff]
  simp only [Bool.or_eq_true, decide_eq_true_eq]
  omega

/-- A field of the first objects, merged with the fields of more objects. -/
theorem mergeInto_fieldOf {os ps : List (List (String × Observation))} {name : String}
    (ih : Appends (valuesUnder name os)) (hn : name ∈ names os) (hp : ps ≠ []) :
    Field.mergeInto (os ++ ps).length ((names ps).map (fieldOf ps)) (fieldOf os name) =
      fieldOf (os ++ ps) name := by
  have hk := length_valuesUnder_le name os
  have hl := length_valuesUnder_le name ps
  have hv : valuesUnder name os ≠ [] := fun h => valuesUnder_eq_nil_iff.mp h hn
  have hlast : lastField? ((names ps).map (fieldOf ps)) name = _ :=
    lastField?_map (fun _ => rfl) (names ps) name
  rw [Field.mergeInto, show (fieldOf os name).name = name from rfl, hlast]
  by_cases hnp : name ∈ names ps
  · have hw : valuesUnder name ps ≠ [] := fun h => valuesUnder_eq_nil_iff.mp h hnp
    rw [if_pos hnp]
    simp only [fieldOf]
    rw [ih _ _ _ hv hw, ← Int.natCast_add, ofCounts_summaryWith, List.length_append,
      absent_add hk hl, valuesUnder_append, List.length_append]
  · have hw : valuesUnder name ps = [] := valuesUnder_eq_nil_iff.mpr hnp
    -- all objects on the right lack the name, so the merged field is optional
    have hlt : (valuesUnder name os).length < (os ++ ps).length := by
      have := List.length_pos_iff.mpr hp
      rw [List.length_append]
      omega
    rw [if_neg hnp]
    simp only [fieldOf]
    rw [ofCounts_summaryWith, valuesUnder_append, hw, List.append_nil, decide_eq_true hlt,
      Bool.or_true]

/-- A field of more objects whose name is new. -/
theorem ofCounts_fieldOf {os ps : List (List (String × Observation))} {name : String}
    (hn : name ∉ names os) (ho : os ≠ []) :
    Field.ofCounts name (fieldOf ps name).type (fieldOf ps name).observed (os ++ ps).length =
      fieldOf (os ++ ps) name := by
  have hw : valuesUnder name os = [] := valuesUnder_eq_nil_iff.mpr hn
  -- all objects on the left lack the name
  have hlt : (valuesUnder name ps).length < (os ++ ps).length := by
    have := List.length_pos_iff.mpr ho
    have := length_valuesUnder_le name ps
    rw [List.length_append]
    omega
  simp only [fieldOf]
  rw [ofCounts_summaryWith, valuesUnder_append, hw, List.nil_append, decide_eq_true hlt,
    Bool.or_true]

/-! ### Objects -/

theorem fields_append {os ps : List (List (String × Observation))}
    (ih : ∀ name, Appends (valuesUnder name os)) (ho : os ≠ []) (hp : ps ≠ []) :
    mergeFields (os ++ ps).length ((names ps).map (fieldOf ps)) ((names os).map (fieldOf os)) ++
        newFields (os ++ ps).length ((names os).map (fieldOf os)) ((names ps).map (fieldOf ps)) =
      (names (os ++ ps)).map (fieldOf (os ++ ps)) := by
  have hnames : ((names os).map (fieldOf os)).map Field.name = names os := by
    rw [List.map_map]
    exact List.map_id _
  rw [names_append, List.map_append, mergeFields_eq_map, newFields, hnames]
  congr 1
  -- the fields of the left side in their order, and then those whose names are new
  · rw [List.map_map]
    exact List.map_congr_left fun name hn => mergeInto_fieldOf (ih name) hn hp
  · rw [List.filter_map, List.map_map]
    refine List.map_congr_left fun name hn => ofCounts_fieldOf (fun hm => ?_) ho
    have h : (!(names os).contains name) = true := (List.mem_filter.mp hn).2
    rw [List.contains_iff_mem.mpr hm] at h
    cases h

theorem objectPart_append {xs : List Observation}
    (ih : ∀ name, Appends (valuesUnder name (objects xs))) (ys : List Observation) :
    objectPart (xs ++ ys) = Option.merge ObjectPart.merge (objectPart xs) (objectPart ys) := by
  rw [objectPart, objectPart, objectPart, objects_append]
  by_cases hx : objects xs = []
  · rw [hx, if_pos rfl, Option.merge_none_left, List.nil_append]
  by_cases hy : objects ys = []
  · rw [hy, if_pos rfl, Option.merge_none_right, List.append_nil]
  rw [if_neg hx, if_neg hy, if_neg fun h => hx (List.append_eq_nil_iff.mp h).1,
    Option.merge_some_some, ObjectPart.merge]
  simp only
  rw [← Int.natCast_add, ← List.length_append, fields_append ih hx hy]

/-! ### Schemas -/

theorem partsOf_append {xs : List Observation} (hitems : Appends (items xs))
    (hfields : ∀ name, Appends (valuesUnder name (objects xs))) (ys : List Observation) :
    partsOf (xs ++ ys) = (partsOf xs).merge (partsOf ys) := by
  rw [partsOf, arrayPart_append hitems, objectPart_append hfields, numbers_append, texts_append,
    NumberPart.ofAll_append, StringPart.ofAll_append, List.any_append]
  rfl

/-- A summary without types is one of nulls only. -/
theorem any_isNull_of_toList {xs : List Observation} (hx : xs ≠ [])
    (h : (partsOf xs).toList = []) : xs.any isNull = true := by
  obtain ⟨x, hm⟩ := List.exists_mem_of_ne_nil xs hx
  obtain ⟨hb, hn, hs, ha, ho⟩ := Parts.toList_eq_nil_iff.mp h
  cases x with
  | null => exact any_isNull_iff.mpr hm
  | bool => exact absurd (any_isBool_iff.mpr hm) (Bool.eq_false_iff.mp hb)
  | number p =>
      exact absurd (mem_numbers.mpr hm) (NumberPart.ofAll_eq_none_iff.mp hn ▸ List.not_mem_nil)
  | string p =>
      exact absurd (mem_texts.mpr hm) (StringPart.ofAll_eq_none_iff.mp hs ▸ List.not_mem_nil)
  | array as =>
      exact absurd (mem_arrays.mpr hm) (arrayPart_eq_none_iff.mp ha ▸ List.not_mem_nil)
  | object fs =>
      exact absurd (mem_objects.mpr hm) (objectPart_eq_none_iff.mp ho ▸ List.not_mem_nil)

/-- A summary may be null if a null was seen or something was missing. -/
theorem isNullable_summaryWith (absent : Bool) {xs : List Observation} (hx : xs ≠ []) :
    (summaryWith absent xs).isNullable = (absent || xs.any isNull) := by
  rw [summaryWith_eq_assemble, Parts.isNullable_assemble]
  cases h : (partsOf xs).toList with
  | nil => simp [any_isNull_of_toList hx h]
  | cons _ _ => simp

/-- **Merging is appending.** -/
theorem appends (xs : List Observation) : Appends xs := fun ys m n hx hy => by
  have hparts : partsOf (xs ++ ys) = (partsOf xs).merge (partsOf ys) := by
    refine partsOf_append ?_ (fun name => ?_) ys
    -- without arrays there are no items, and nothing is smaller
    · by_cases h : arrays xs = []
      · exact fun _ _ _ hi _ => absurd (items_eq_nil_of_arrays h) hi
      · exact appends (items xs)
    · by_cases h : objects xs = []
      · exact fun _ _ _ hv _ => absurd (by rw [h]; rfl) hv
      · exact appends (valuesUnder name (objects xs))
  have hnull : ((m || xs.any isNull) || (n || ys.any isNull)) =
      ((m || n) || (xs ++ ys).any isNull) := by
    rw [List.any_append]
    ac_rfl
  rw [merge_eq, isNullable_summaryWith m hx, isNullable_summaryWith n hy, parts_summaryWith,
    parts_summaryWith, ← hparts, hnull, ← summaryWith_eq_assemble]
termination_by sizeOf xs
decreasing_by
  · exact sizeOf_items_lt h
  · exact sizeOf_valuesUnder_lt name h

/-- **The merge of two summaries is the summary of everything seen.** -/
theorem merge_summary {xs ys : List Observation} (hx : xs ≠ []) (hy : ys ≠ []) :
    (summary xs).merge (summary ys) = summary (xs ++ ys) := appends xs ys false false hx hy

example : (summary [.object [("id", .number .int)]]).merge
      (summary [.object [("id", .null), ("tags", .array [])]]) =
    .object none 2 [⟨"id", .optional .int, false, 2, 2⟩,
      ⟨"tags", .optional (.array .null true), true, 1, 2⟩] := by cbv

end Observation

end SampleSchema
