import Mathlib.Data.List.Nodup
import SampleSchema.Proofs.Assembly

/-!
# The fields of merged objects

Every field of merged objects comes from a field on each side, from one on the left only, or from
one on the right only (`ObjectPart.MergedField`), and the names stay distinct
(`nodup_names_merge`).

What is proved of schemas bucket by bucket needs an induction that goes from a schema to the element
of its arrays and to the types of its fields, past optionals and unions: `Schema.inductionOnParts`.
-/

namespace SampleSchema

/-- Induction from the elements of arrays and the types of fields to the schemas that hold them. -/
theorem Schema.inductionOnParts {P : Schema → Prop}
    (step : ∀ t : Schema, (∀ p, t.parts.array = some p → P p.element) →
      (∀ p, t.parts.object = some p → ∀ f ∈ p.fields, P f.type) → P t) (t : Schema) : P t := by
  refine step t (fun p hp => ?_) fun p hp f hf => ?_
  · exact inductionOnParts step p.element
  · exact inductionOnParts step f.type
termination_by sizeOf t
decreasing_by
  · exact Schema.element_lt hp
  · have hfields := Schema.fields_lt hp
    have hfield := List.sizeOf_lt_of_mem hf
    obtain ⟨name, type, optional, observed, total⟩ := f
    simp only [Field.mk.sizeOf_spec] at hfield ⊢
    omega

/-! ### Fields with given counts -/

namespace Field
variable (name : String) (type : Schema) (observed total : Int)

@[simp] theorem ofCounts_name : (ofCounts name type observed total).name = name := by
  rw [ofCounts]; split <;> rfl

@[simp] theorem ofCounts_observed :
    (ofCounts name type observed total).observed = observed := by
  rw [ofCounts]; split <;> rfl

@[simp] theorem ofCounts_total : (ofCounts name type observed total).total = total := by
  rw [ofCounts]; split <;> rfl

@[simp] theorem ofCounts_optional :
    (ofCounts name type observed total).optional = decide (observed < total) := by
  rw [ofCounts]; split <;> simp [*]

/-- The type of a field may be null where the field was missing. -/
theorem ofCounts_type : (ofCounts name type observed total).type =
    if observed < total then type.makeOptional else type := by
  rw [ofCounts]; split <;> rfl

end Field

/-! ### Fields of a name -/

/-- A field that is found has the name that was looked for. -/
theorem mem_of_lastField? {fs : List (Field Schema)} {name : String} {f : Field Schema}
    (h : lastField? fs name = some f) : f ∈ fs ∧ f.name = name :=
  ⟨List.mem_reverse.mp (List.mem_of_find?_eq_some h), by simpa using List.find?_some h⟩

/-- No field is found if none has the name. -/
theorem lastField?_eq_none_iff {fs : List (Field Schema)} {name : String} :
    lastField? fs name = none ↔ ∀ f ∈ fs, f.name ≠ name := by
  simp [lastField?]

/-- Some field has a name, or none has. -/
theorem exists_or_forall_ne (fs : List (Field Schema)) (name : String) :
    (∃ f ∈ fs, f.name = name) ∨ ∀ f ∈ fs, f.name ≠ name := by
  by_cases h : ∃ f ∈ fs, f.name = name
  · exact .inl h
  · exact .inr fun f hf e => h ⟨f, hf, e⟩

/-- Among fields with distinct names the last of a name is the only one. -/
theorem lastField?_eq_some {fs : List (Field Schema)} (hn : (fs.map Field.name).Nodup)
    {f : Field Schema} (hf : f ∈ fs) : lastField? fs f.name = some f := by
  cases h : lastField? fs f.name with
  | none => exact absurd rfl (lastField?_eq_none_iff.mp h f hf)
  | some g =>
      obtain ⟨hg, e⟩ := mem_of_lastField? h
      rw [List.inj_on_of_nodup_map hn hg hf e]

/-! ### Merged objects -/

namespace ObjectPart
variable {p q : ObjectPart}

/-- How a field of the merge of `p` and `q` comes about: from a field of each, or from a field of
one of them whose name the other lacks. -/
inductive MergedField (p q : ObjectPart) : Field Schema → Prop where
  | both {f g : Field Schema} (hf : f ∈ p.fields) (hg : g ∈ q.fields) (hn : g.name = f.name) :
      MergedField p q (Field.ofCounts f.name (f.type.merge g.type) (f.observed + g.observed)
        (p.samples + q.samples))
  | left {f : Field Schema} (hf : f ∈ p.fields) (hn : ∀ g ∈ q.fields, g.name ≠ f.name) :
      MergedField p q (Field.ofCounts f.name f.type f.observed (p.samples + q.samples))
  | right {g : Field Schema} (hg : g ∈ q.fields) (hn : ∀ f ∈ p.fields, f.name ≠ g.name) :
      MergedField p q (Field.ofCounts g.name g.type g.observed (p.samples + q.samples))

theorem mem_newFields_iff {total : Int} {fs gs : List (Field Schema)} {h : Field Schema} :
    h ∈ newFields total fs gs ↔ ∃ g ∈ gs, (∀ f ∈ fs, f.name ≠ g.name) ∧
      Field.ofCounts g.name g.type g.observed total = h := by
  simp [newFields, and_assoc]

/-- A field of a merge was merged from those of its name. -/
theorem mergedField_of_mem {h : Field Schema} (hh : h ∈ (p.merge q).fields) :
    p.MergedField q h := by
  rcases List.mem_append.mp hh with hh | hh
  · rw [mergeFields_eq_map] at hh
    obtain ⟨f, hf, rfl⟩ := List.mem_map.mp hh
    rw [Field.mergeInto]
    split
    · rename_i g hg
      obtain ⟨hg, hn⟩ := mem_of_lastField? hg
      exact .both hf hg hn
    · rename_i hg
      exact .left hf (lastField?_eq_none_iff.mp hg)
  · obtain ⟨g, hg, hn, rfl⟩ := mem_newFields_iff.mp hh
    exact .right hg hn

/-- What is merged from the fields of a name is a field of the merge. -/
theorem MergedField.mem {h : Field Schema} (hq : (q.fields.map Field.name).Nodup)
    (hh : p.MergedField q h) : h ∈ (p.merge q).fields := by
  cases hh with
  | @both f g hf hg hn =>
      refine List.mem_append_left _ ?_
      rw [mergeFields_eq_map]
      refine List.mem_map.mpr ⟨f, hf, ?_⟩
      rw [Field.mergeInto, ← hn, lastField?_eq_some hq hg]
  | @left f hf hn =>
      refine List.mem_append_left _ ?_
      rw [mergeFields_eq_map]
      refine List.mem_map.mpr ⟨f, hf, ?_⟩
      rw [Field.mergeInto, lastField?_eq_none_iff.mpr hn]
  | @right g hg hn => exact List.mem_append_right _ (mem_newFields_iff.mpr ⟨g, hg, hn, rfl⟩)

/-- A merge has the names of the first object, then those that only the second one has. -/
theorem names_merge (p q : ObjectPart) : (p.merge q).fields.map Field.name =
    p.fields.map Field.name ++
      (q.fields.map Field.name).filter fun name => !(p.fields.map Field.name).contains name := by
  have hp : ∀ f : Field Schema,
      (f.mergeInto (p.samples + q.samples) q.fields).name = f.name := fun f => by
    rw [Field.mergeInto]; split <;> exact Field.ofCounts_name ..
  rw [merge, List.map_append, mergeFields_eq_map, newFields, List.map_map, List.map_map,
    List.filter_map]
  congr 1
  · exact List.map_congr_left fun f _ => hp f
  · exact List.map_congr_left fun g _ => Field.ofCounts_name ..

/-- Merged objects have fields of distinct names when the objects do. -/
theorem nodup_names_merge (hp : (p.fields.map Field.name).Nodup)
    (hq : (q.fields.map Field.name).Nodup) : ((p.merge q).fields.map Field.name).Nodup := by
  rw [names_merge, List.nodup_append]
  refine ⟨hp, hq.filter _, fun name hname other hother e => ?_⟩
  have h : (!(p.fields.map Field.name).contains other) = true := (List.mem_filter.mp hother).2
  rw [← e, List.contains_iff_mem.mpr hname] at h
  cases h

/-- A field of one of the objects has its name among the fields of the merge. -/
theorem mem_names_merge_iff {name : String} : name ∈ (p.merge q).fields.map Field.name ↔
    name ∈ p.fields.map Field.name ∨ name ∈ q.fields.map Field.name := by
  rw [names_merge, List.mem_append, List.mem_filter]
  by_cases h : name ∈ p.fields.map Field.name <;> simp [h]

end ObjectPart

end SampleSchema
