import SampleSchema.Proofs.Variants

/-!
# Well-formed schemas

`Schema.WellFormed k` says what a schema has to look like at every depth.  The conditions `k` are
those on a single array, object, optional or union, and are such that merging keeps them
(`Conditions`).

* `Schema.WellFormed.assemble_parts`: a schema in canonical form is what its parts make.
* `Schema.WellFormed.merge`: merges of well-formed schemas are well-formed.
* `Conditions.tallied`: the counts of fields agree with the number of objects, and unions are choices.
* `Conditions.observed`: schemas are in canonical form and look as if they came from samples.
-/

namespace SampleSchema

/-! ### Conditions on the nodes of a schema -/

/-- Conditions on the nodes of a schema that hold of what merging makes: of arrays that are not
empty, of optionals of types that are not nullable, of variants in order, and of merged objects. -/
structure Conditions where
  array    : Schema → Bool → Prop
  object   : ObjectPart → Prop
  optional : Schema → Prop
  union    : List Schema → Prop
  isChoice : ∀ {ts}, union ts → IsChoice ts
  of_array : ∀ t, array t false
  of_merge : ∀ {p q}, object p → object q → object (p.merge q)
  of_not_isNullable : ∀ {t}, t.isNullable = false → optional t
  of_areVariants    : ∀ {ts}, AreVariants ts → union ts

section
variable (k : Conditions)

mutual

/-- Whether the nodes of a schema satisfy the conditions at every depth. -/
def Schema.WellFormed : Schema → Prop
  | .array e empty => k.array e empty ∧ e.WellFormed
  | .object n m fs => k.object ⟨n, m, fs⟩ ∧ fieldsWellFormed fs
  | .optional t    => k.optional t ∧ t.WellFormed
  | .union ts      => k.union ts ∧ allWellFormed ts
  | .null | .bool | .int | .float | .string _ | .timestamp => True

/-- Whether the types of fields are well formed. -/
def fieldsWellFormed : List (Field Schema) → Prop
  | [] => True
  | ⟨_, type, _, _, _⟩ :: fs => type.WellFormed ∧ fieldsWellFormed fs

/-- Whether several schemas are well formed. -/
def allWellFormed : List Schema → Prop
  | [] => True
  | t :: ts => t.WellFormed ∧ allWellFormed ts

end

end

section
variable {k : Conditions}

theorem fieldsWellFormed_iff : ∀ {fs : List (Field Schema)},
    fieldsWellFormed k fs ↔ ∀ f ∈ fs, f.type.WellFormed k
  | [] => by simp [fieldsWellFormed]
  | f :: fs => by rw [fieldsWellFormed, fieldsWellFormed_iff, List.forall_mem_cons]

theorem allWellFormed_iff : ∀ {ts : List Schema},
    allWellFormed k ts ↔ ∀ t ∈ ts, t.WellFormed k
  | [] => by simp [allWellFormed]
  | t :: ts => by rw [allWellFormed, allWellFormed_iff, List.forall_mem_cons]

/-- A well-formed schema may also be null. -/
theorem Schema.WellFormed.makeOptional {t : Schema} (h : t.WellFormed k) :
    t.makeOptional.WellFormed k := by
  cases hn : t.isNullable with
  | true => rwa [makeOptional_of_isNullable hn]
  | false =>
      rw [makeOptional_of_not_isNullable hn]
      exact ⟨k.of_not_isNullable hn, h⟩

/-! ### Well-formed parts -/

/-- Whether the schemas of parts are well-formed. -/
structure Parts.WellFormed (k : Conditions) (p : Parts) : Prop where
  array  : ∀ {a}, p.array = some a → a.toSchema.WellFormed k
  object : ∀ {o}, p.object = some o → o.toSchema.WellFormed k

/-- Parts are well formed if their schemas are. -/
theorem Parts.wellFormed_iff {p : Parts} :
    p.WellFormed k ↔ ∀ t ∈ p.toList, t.WellFormed k := by
  constructor
  · rintro ⟨harray, hobject⟩ t ht
    rcases mem_toList_iff.mp ht with ⟨-, rfl⟩ | ⟨n, -, rfl⟩ | ⟨s, -, rfl⟩ | ⟨a, ha, rfl⟩ | ⟨o, ho, rfl⟩
    · exact trivial
    · cases n <;> exact trivial
    · cases s <;> exact trivial
    · exact harray ha
    · exact hobject ho
  · intro h
    refine ⟨fun ha => h _ ?_, fun ho => h _ ?_⟩
    · exact mem_toList_iff.mpr (.inr (.inr (.inr (.inl ⟨_, ha, rfl⟩))))
    · exact mem_toList_iff.mpr (.inr (.inr (.inr (.inr ⟨_, ho, rfl⟩))))

/-- A choice between well-formed variants is well formed. -/
theorem Schema.wellFormed_choice (nullable : Bool) : ∀ {ts : List Schema},
    (∀ t ∈ ts, t.isNullable = false) → (∀ t ∈ ts, t.WellFormed k) →
      (2 ≤ ts.length → AreVariants ts) → (Schema.choice nullable ts).WellFormed k
  | [], _, _, _ => trivial
  | [t], hnull, hall, _ => by
      have ht : t.WellFormed k := hall t (List.mem_singleton_self t)
      cases nullable
      · exact ht
      · exact ⟨k.of_not_isNullable (hnull t (List.mem_singleton_self t)), ht⟩
  | t :: u :: ts, _, hall, hvariants => by
      have hunion : (Schema.union (t :: u :: ts)).WellFormed k :=
        ⟨k.of_areVariants (hvariants (by simp)), allWellFormed_iff.mpr hall⟩
      cases nullable
      · exact hunion
      · exact ⟨k.of_not_isNullable rfl, hunion⟩

/-- What well-formed parts make is well-formed. -/
theorem Parts.WellFormed.assemble {p : Parts} (h : p.WellFormed k) (nullable : Bool) :
    (p.assemble nullable).WellFormed k :=
  Schema.wellFormed_choice nullable (fun _ => isNullable_of_mem_toList) (wellFormed_iff.mp h)
    fun h₂ => areVariants_iff.mpr ⟨h₂, p, rfl⟩

/-- The parts of a well-formed schema are well formed. -/
theorem Schema.WellFormed.parts : ∀ {t : Schema}, t.WellFormed k → t.parts.WellFormed k
  | .null, _ | .bool, _ | .int, _ | .float, _ | .string false, _ | .string true, _
  | .timestamp, _ => ⟨nofun, nofun⟩
  | .array e empty, h => ⟨fun ha => by cases ha; exact h, nofun⟩
  | .object n m fs, h => ⟨nofun, fun ho => by cases ho; exact h⟩
  | .optional t, h => h.2.parts
  | .union ts, h => by
      refine Parts.wellFormed_iff.mpr fun t ht => ?_
      exact allWellFormed_iff.mp h.2 t (((k.isChoice h.1).mem_toList_iff t).mp ht)

/-! ### Merging well-formed schemas -/

/-- Merged objects are well formed if the merged types of their fields are. -/
theorem ObjectPart.wellFormed_merge {p q : ObjectPart} (hp : p.toSchema.WellFormed k)
    (hq : q.toSchema.WellFormed k)
    (ih : ∀ f ∈ p.fields, ∀ t : Schema, t.WellFormed k → (f.type.merge t).WellFormed k) :
    (p.merge q).toSchema.WellFormed k := by
  have hpf := fieldsWellFormed_iff.mp hp.2
  have hqf := fieldsWellFormed_iff.mp hq.2
  have counts : ∀ (name : String) {t : Schema} (observed total : Int), t.WellFormed k →
      (Field.ofCounts name t observed total).type.WellFormed k := fun name t observed total ht => by
    rw [Field.ofCounts_type]
    split
    · exact ht.makeOptional
    · exact ht
  refine ⟨k.of_merge hp.1 hq.1, fieldsWellFormed_iff.mpr fun h hh => ?_⟩
  cases mergedField_of_mem hh with
  | both hf hg _ => exact counts _ _ _ (ih _ hf _ (hqf _ hg))
  | left hf _ => exact counts _ _ _ (hpf _ hf)
  | right hg _ => exact counts _ _ _ (hqf _ hg)

/-- **Merges of well-formed schemas are well-formed.** -/
theorem Schema.WellFormed.merge {a b : Schema} (ha : a.WellFormed k) (hb : b.WellFormed k) :
    (a.merge b).WellFormed k := by
  induction a using Schema.inductionOnParts generalizing b with
  | step a ihe ihf =>
      rw [merge_eq]
      refine Parts.WellFormed.assemble ⟨fun {r} hr => ?_, fun {r} hr => ?_⟩ _
      · rcases Option.merge_eq_some_iff.mp hr with ⟨hp, -⟩ | ⟨-, hq⟩ | ⟨p, q, hp, hq, rfl⟩
        · exact ha.parts.array hp
        · exact hb.parts.array hq
        · rw [ArrayPart.merge]
          split
          · exact hb.parts.array hq
          split
          · exact ha.parts.array hp
          · exact ⟨k.of_array _, ihe p hp (ha.parts.array hp).2 (hb.parts.array hq).2⟩
      · rcases Option.merge_eq_some_iff.mp hr with ⟨hp, -⟩ | ⟨-, hq⟩ | ⟨p, q, hp, hq, rfl⟩
        · exact ha.parts.object hp
        · exact hb.parts.object hq
        · have hpw := ha.parts.object hp
          refine ObjectPart.wellFormed_merge hpw (hb.parts.object hq) fun f hf t ht => ?_
          exact ihf p hp f hf (fieldsWellFormed_iff.mp hpw.2 f hf) ht

end

/-! ### Objects -/

/-- Whether the counts of the fields of objects agree with the number of objects: a field is seen at
most as often as there are objects, and is optional, and then nullable, if it is seen less often. -/
structure ObjectPart.Tallied (p : ObjectPart) : Prop where
  nodup_names    : (p.fields.map Field.name).Nodup
  one_le_samples : 1 ≤ p.samples
  total_eq       : ∀ f ∈ p.fields, f.total = p.samples
  observed_le    : ∀ f ∈ p.fields, f.observed ≤ f.total
  optional_iff   : ∀ f ∈ p.fields, f.optional = true ↔ f.observed < f.total
  isNullable     : ∀ f ∈ p.fields, f.optional = true → f.type.isNullable = true

/-- Whether objects look as if they were seen in samples: they have no name yet, and every field
occurs in one of them at least. -/
structure ObjectPart.Observed (p : ObjectPart) : Prop extends p.Tallied where
  name_eq         : p.name = none
  one_le_observed : ∀ f ∈ p.fields, 1 ≤ f.observed

namespace ObjectPart
variable {p q : ObjectPart}

/-- A field is seen at most as often as its object. -/
theorem Tallied.observed_le_samples (hp : p.Tallied) {f : Field Schema} (hf : f ∈ p.fields) :
    f.observed ≤ p.samples := hp.total_eq f hf ▸ hp.observed_le f hf

/-- A field is optional exactly if it is seen less often than its object. -/
theorem Tallied.observed_lt_samples (hp : p.Tallied) {f : Field Schema} (hf : f ∈ p.fields) :
    f.optional = true ↔ f.observed < p.samples := hp.total_eq f hf ▸ hp.optional_iff f hf

theorem Tallied.merge (hp : p.Tallied) (hq : q.Tallied) : (p.merge q).Tallied := by
  have hsamples : (p.merge q).samples = p.samples + q.samples := rfl
  have hps := hp.one_le_samples
  have hqs := hq.one_le_samples
  refine ⟨nodup_names_merge hp.nodup_names hq.nodup_names, by omega, ?_, ?_, ?_, ?_⟩ <;>
    intro h hh
  · cases mergedField_of_mem hh <;> simp [hsamples]
  · cases mergedField_of_mem hh with
    | both hf hg _ =>
        have := hp.observed_le_samples hf
        have := hq.observed_le_samples hg
        simp only [Field.ofCounts_observed, Field.ofCounts_total]
        omega
    | left hf _ =>
        have := hp.observed_le_samples hf
        simp only [Field.ofCounts_observed, Field.ofCounts_total]
        omega
    | right hg _ =>
        have := hq.observed_le_samples hg
        simp only [Field.ofCounts_observed, Field.ofCounts_total]
        omega
  · cases mergedField_of_mem hh <;> simp
  · cases mergedField_of_mem hh <;>
      · simp only [Field.ofCounts_optional, decide_eq_true_eq, Field.ofCounts_type]
        intro hlt
        rw [if_pos hlt, Schema.isNullable_makeOptional]

theorem Observed.merge (hp : p.Observed) (hq : q.Observed) : (p.merge q).Observed := by
  refine ⟨hp.toTallied.merge hq.toTallied, rfl, fun h hh => ?_⟩
  cases mergedField_of_mem hh with
  | both hf hg _ =>
      have := hp.one_le_observed _ hf
      have := hq.one_le_observed _ hg
      rw [Field.ofCounts_observed]
      omega
  | left hf _ => rw [Field.ofCounts_observed]; exact hp.one_le_observed _ hf
  | right hg _ => rw [Field.ofCounts_observed]; exact hq.one_le_observed _ hg

end ObjectPart

/-! ### Canonical form -/

namespace Conditions

/-- Objects are tallied and unions are choices, with variants in any order. -/
def tallied : Conditions where
  array    := fun _ _ => True
  object   := ObjectPart.Tallied
  optional := fun _ => True
  union    := IsChoice
  isChoice := id
  of_array := fun _ => trivial
  of_merge := ObjectPart.Tallied.merge
  of_not_isNullable := fun _ => trivial
  of_areVariants    := AreVariants.isChoice

/-- Schemas are in canonical form: arrays marked as empty have null elements, what is optional is
not nullable by itself, and unions are lists of variants. -/
def canonical (object : ObjectPart → Prop)
    (of_merge : ∀ {p q}, object p → object q → object (p.merge q)) : Conditions where
  array    := fun e empty => empty = true → e = .null
  object   := object
  optional := fun t => t.isNullable = false
  union    := AreVariants
  isChoice := AreVariants.isChoice
  of_array := fun _ => nofun
  of_merge := of_merge
  of_not_isNullable := id
  of_areVariants    := id

/-- Schemas are in canonical form and have objects that look as if they were seen in samples. -/
def observed : Conditions := canonical ObjectPart.Observed ObjectPart.Observed.merge

end Conditions

theorem Schema.choice_of_two_le : ∀ {ts : List Schema}, 2 ≤ ts.length →
    Schema.choice false ts = .union ts
  | _ :: _ :: _, _ => rfl

/-- A schema in canonical form is what its parts make. -/
theorem Schema.WellFormed.assemble_parts {object : ObjectPart → Prop}
    {of_merge : ∀ {p q}, object p → object q → object (p.merge q)} : ∀ {t : Schema},
    t.WellFormed (.canonical object of_merge) → t.parts.assemble t.isNullable = t
  | .null, _ | .bool, _ | .int, _ | .float, _ | .string false, _ | .string true, _
  | .timestamp, _ | .array .., _ | .object .., _ => rfl
  | .optional t, h => by
      have hn : t.isNullable = false := h.1
      have ht := assemble_parts h.2
      rw [hn] at ht
      rw [Schema.parts, ← makeOptional_of_not_isNullable hn, isNullable_makeOptional,
        ← Parts.makeOptional_assemble false, ht]
  | .union ts, h => by
      have hts : AreVariants ts := h.1
      rw [Schema.parts, Parts.assemble_eq_choice, hts.toList_eq]
      exact choice_of_two_le hts.1

end SampleSchema
