import SampleSchema.Proofs.Invariant
import SampleSchema.Proofs.Positions

/-!
# Merging and null

Whether null is admitted before two schemas are merged or afterwards makes no difference
(`makeOptional_merge`, `merge_makeOptional`), since a schema and the one that admits null have the
same parts.  So null is neutral for schemas that admit it, and merging it into any other one only
admits it (`Schema.WellFormed.merge_null`); the schema of empty arrays is neutral for schemas that
have arrays (`Schema.WellFormed.merge_emptyArray`).

These laws of a single schema need it to be in canonical form, where a schema is what its parts make.
The merge of any two schemas is in normal form at its top, also of such as no sample leads to
(`isNormal_merge`).
-/

namespace SampleSchema

/-! ### Admitting null -/

/-- Null may be admitted on the left before merging or in the merge. -/
theorem makeOptional_merge (a b : Schema) : a.makeOptional.merge b = (a.merge b).makeOptional := by
  rw [merge_eq, merge_eq, Schema.parts_makeOptional, Schema.isNullable_makeOptional, Bool.true_or,
    Parts.makeOptional_assemble]

/-- Null may be admitted on the right before merging or in the merge. -/
theorem merge_makeOptional (a b : Schema) : a.merge b.makeOptional = (a.merge b).makeOptional := by
  rw [merge_eq, merge_eq, Schema.parts_makeOptional, Schema.isNullable_makeOptional, Bool.or_true,
    Parts.makeOptional_assemble]

/-! ### What is neutral -/

namespace Parts
variable {p : Parts} {a b : ArrayPart}

theorem merge_empty (p : Parts) : p.merge {} = p := by
  simp [merge]

theorem empty_merge (p : Parts) : merge {} p = p := by
  simp [merge]

/-- An array part that does not change another one may be merged into it. -/
theorem merge_array (hp : p.array = some a) (h : a.merge b = a) : p.merge { array := some b } = p := by
  obtain ⟨_, _, _, _, _⟩ := p
  cases hp
  simp [merge, h]

/-- An array part may be merged into one that it does not change. -/
theorem array_merge (hp : p.array = some a) (h : b.merge a = a) : merge { array := some b } p = p := by
  obtain ⟨_, _, _, _, _⟩ := p
  cases hp
  simp [merge, h]

end Parts

namespace Schema.WellFormed
variable {object : ObjectPart → Prop}
  {of_merge : ∀ {p q}, object p → object q → object (p.merge q)} {t u : Schema}
  (h : t.WellFormed (.canonical object of_merge))
include h

/-- The parts of a schema in canonical form make the schema, and admit null besides if that is asked
for. -/
theorem assemble_or (nullable : Bool) :
    t.parts.assemble (t.isNullable || nullable) = if nullable then t.makeOptional else t := by
  cases nullable with
  | true => rw [Bool.or_true, if_pos rfl, ← Parts.makeOptional_assemble t.isNullable, h.assemble_parts]
  | false => rw [Bool.or_false, if_neg Bool.false_ne_true, h.assemble_parts]

/-- Where the parts of a second schema change nothing, merging it in admits null at most. -/
theorem merge_of_parts (hp : t.parts.merge u.parts = t.parts) :
    t.merge u = if u.isNullable then t.makeOptional else t := by
  rw [merge_eq, hp, h.assemble_or]

/-- A schema whose parts change nothing matters for null only. -/
theorem merge_of_parts_left (hp : u.parts.merge t.parts = t.parts) :
    u.merge t = if u.isNullable then t.makeOptional else t := by
  rw [merge_eq, hp, Bool.or_comm, h.assemble_or]

theorem merge_null : t.merge .null = t.makeOptional :=
  h.merge_of_parts (Parts.merge_empty _)

theorem null_merge : Schema.null.merge t = t.makeOptional :=
  h.merge_of_parts_left (Parts.empty_merge _)

/-- In canonical form there is one part for arrays that are all empty. -/
theorem eq_emptyArray {p : ArrayPart} (hp : t.parts.array = some p) (he : p.empty = true) :
    p = ⟨.null, true⟩ := by
  have hnull : p.element = .null := (h.parts.array hp).1 he
  obtain ⟨element, empty⟩ := p
  cases hnull
  cases he
  rfl

/-- The schema of empty arrays changes nothing where there are arrays. -/
theorem merge_emptyArray (ha : t.parts.array.isSome = true) : t.merge (.array .null true) = t := by
  obtain ⟨p, hp⟩ := Option.isSome_iff_exists.mp ha
  refine h.merge_of_parts (Parts.merge_array hp ?_)
  rw [ArrayPart.merge]
  split
  · exact (h.eq_emptyArray hp ‹_›).symm
  · exact if_pos rfl

theorem emptyArray_merge (ha : t.parts.array.isSome = true) :
    (Schema.array .null true).merge t = t := by
  obtain ⟨p, hp⟩ := Option.isSome_iff_exists.mp ha
  exact h.merge_of_parts_left (Parts.array_merge hp (if_pos rfl))

end Schema.WellFormed

/-! ### Normal form at the top -/

/-- What may stand below the optional of a schema in normal form: a type in a bucket, or the union of
two or more of different buckets in their order. -/
inductive Schema.IsCore : Schema → Prop where
  | single {t : Schema} {b : Bucket} (h : t.kind.bucket? = some b) : IsCore t
  | union {ts : List Schema} (h : AreVariants ts) : IsCore (.union ts)

/-- Whether a schema is in normal form at its top: null, or a core below one optional at most. -/
inductive Schema.IsNormal : Schema → Prop where
  | null : IsNormal .null
  | core {t : Schema} (h : t.IsCore) : IsNormal t
  | optional {t : Schema} (h : t.IsCore) : IsNormal (.optional t)

theorem Schema.IsCore.isNormal {t : Schema} (h : t.IsCore) (nullable : Bool) :
    (if nullable then .optional t else t).IsNormal := by
  cases nullable with
  | true => exact .optional h
  | false => exact .core h

/-- What parts make is in normal form. -/
theorem Parts.isNormal_assemble (nullable : Bool) (p : Parts) : (p.assemble nullable).IsNormal := by
  rw [assemble_eq_choice]
  cases hp : p.toList with
  | nil => exact .null
  | cons t ts =>
      cases ts with
      | nil =>
          have ht : t ∈ p.toList := hp ▸ List.mem_singleton_self t
          obtain ⟨b, hb⟩ := mem_toList_iff_variant?.mp ht
          exact (Schema.IsCore.single (bucket_of_variant? hb)).isNormal nullable
      | cons u us =>
          have hvariants : AreVariants (t :: u :: us) :=
            areVariants_iff.mpr ⟨by simp, p, hp⟩
          exact (Schema.IsCore.union hvariants).isNormal nullable

/-- The merge of any two schemas is in normal form at its top. -/
theorem isNormal_merge (a b : Schema) : (a.merge b).IsNormal := by
  rw [merge_eq]
  exact Parts.isNormal_assemble _ _

/-- **Null and merging.**  Admitting null commutes with merging, and merges are in normal form at their
top, whatever is merged.  Into a schema that inference and merging build, null is merged by admitting
it, and the schema of empty arrays changes nothing where there are arrays. -/
theorem merge_nullable :
    (∀ a b : Schema, a.makeOptional.merge b = (a.merge b).makeOptional ∧
      a.merge b.makeOptional = (a.merge b).makeOptional ∧ (a.merge b).IsNormal) ∧
    ∀ a : Schema, a.Reachable →
      a.merge .null = a.makeOptional ∧ Schema.null.merge a = a.makeOptional ∧
        (a.parts.array.isSome = true →
          a.merge (.array .null true) = a ∧ (Schema.array .null true).merge a = a) := by
  constructor
  · intro a b
    exact ⟨makeOptional_merge a b, merge_makeOptional a b, isNormal_merge a b⟩
  · intro a ha
    have hw : a.WellFormed .observed := ha.wellFormed
    refine ⟨hw.merge_null, hw.null_merge, fun harray => ?_⟩
    exact ⟨hw.merge_emptyArray harray, hw.emptyArray_merge harray⟩

/-- A union with arrays, and a hand-built union of an optional and a union. -/
theorem merge_nullable_of_mixed :
    ((({} : Options).infer (.array [.int 3])).merge (({} : Options).infer (.bool true))).merge
        (.array .null true) =
      (({} : Options).infer (.array [.int 3])).merge (({} : Options).infer (.bool true)) ∧
    ((Schema.union [.optional (.optional .int), .union [.float]]).merge .null).IsNormal := by
  refine ⟨?_, (merge_nullable.1 _ _).2.2⟩
  refine ((merge_nullable.2 _ (.merge (.infer _ rfl) (.infer _ rfl))).2.2 ?_).1
  rw [Schema.parts_merge]
  rfl

end SampleSchema
