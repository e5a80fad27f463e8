import Mathlib.Data.List.Perm.Basic
import SampleSchema.Proofs.FieldOrder

/-!
# What signatures tell apart

A signature forgets the names of objects, the counts and the order of fields, and nothing else:
schemas whose fields have distinct names have one signature exactly when they are the same, up to the
order of fields, once names and counts are erased (`structurallyEqual_iff_alike`).

This is no accident of how a signature is written down.  Written as nested tuples of texts and truth
values, each under the word for its kind, signatures are still told apart
(`Signature.nested_injective`).
-/

namespace SampleSchema

/-! ### Erasing names and counts -/

mutual

/-- A schema without the names of objects and without counts. -/
def Schema.erased : Schema → Schema
  | .array e empty  => .array e.erased empty
  | .object _ _ fs  => .object none 0 (erasedFields fs)
  | .optional t     => .optional t.erased
  | .union ts       => .union (erasedAll ts)
  | .null           => .null
  | .bool           => .bool
  | .int            => .int
  | .float          => .float
  | .string numeric => .string numeric
  | .timestamp      => .timestamp

/-- Fields without counts, and with erased types. -/
def erasedFields : List (Field Schema) → List (Field Schema)
  | [] => []
  | ⟨name, type, optional, _, _⟩ :: fs => ⟨name, type.erased, optional, 0, 0⟩ :: erasedFields fs

/-- The schemas of a list, erased. -/
def erasedAll : List Schema → List Schema
  | [] => []
  | t :: ts => t.erased :: erasedAll ts

end

/-- Fields without counters, one by one. -/
theorem erasedFields_eq_map (fs : List (Field Schema)) :
    erasedFields fs = fs.map fun f => ⟨f.name, f.type.erased, f.optional, 0, 0⟩ := by
  induction fs with
  | nil => rfl
  | cons f fs ih => rw [erasedFields, ih, List.map_cons]

mutual

/-- Erasing keeps the structure of a schema. -/
theorem Schema.signature_erased : ∀ t : Schema, t.erased.signature = t.signature
  | .null | .bool | .int | .float | .string _ | .timestamp => rfl
  | .array e _ => by rw [Schema.erased, Schema.signature, Schema.signature, Schema.signature_erased e]
  | .object _ _ fs => by
      rw [Schema.erased, Schema.signature, Schema.signature, fieldSignatures_erasedFields fs]
  | .optional t => by rw [Schema.erased, Schema.signature, Schema.signature, Schema.signature_erased t]
  | .union ts => by rw [Schema.erased, Schema.signature, Schema.signature, signatures_erasedAll ts]

/-- Counters are no part of the structure of fields. -/
theorem fieldSignatures_erasedFields : ∀ fs : List (Field Schema),
    fieldSignatures (erasedFields fs) = fieldSignatures fs
  | [] => rfl
  | f :: fs => by
      rw [erasedFields, fieldSignatures, fieldSignatures, Schema.signature_erased,
        fieldSignatures_erasedFields fs]

/-- Counters are no part of the structures of schemas. -/
theorem signatures_erasedAll : ∀ ts : List Schema, signatures (erasedAll ts) = signatures ts
  | [] => rfl
  | t :: ts => by
      rw [erasedAll, signatures, signatures, Schema.signature_erased, signatures_erasedAll ts]

end

mutual

/-- Erasing keeps the names of fields. -/
theorem Schema.map_fieldNames_erased : ∀ t : Schema,
    t.erased.objects.map Schema.fieldNames = t.objects.map Schema.fieldNames
  | .null | .bool | .int | .float | .string _ | .timestamp => rfl
  | .array e _ => Schema.map_fieldNames_erased e
  | .object _ _ fs => by
      have hnames : (erasedFields fs).map Field.name = fs.map Field.name := by
        rw [erasedFields_eq_map, List.map_map]
        rfl
      rw [Schema.erased, Schema.objects, Schema.objects, List.map_append, List.map_append,
        map_fieldNames_erasedFields fs, List.map_singleton, List.map_singleton, Schema.fieldNames,
        Schema.fieldNames, hnames]
  | .optional t => Schema.map_fieldNames_erased t
  | .union ts => map_fieldNames_erasedAll ts

theorem map_fieldNames_erasedFields : ∀ fs : List (Field Schema),
    (objectsOfFields (erasedFields fs)).map Schema.fieldNames =
      (objectsOfFields fs).map Schema.fieldNames
  | [] => rfl
  | f :: fs => by
      rw [erasedFields, objectsOfFields, objectsOfFields, List.map_append, List.map_append,
        Schema.map_fieldNames_erased, map_fieldNames_erasedFields fs]

theorem map_fieldNames_erasedAll : ∀ ts : List Schema,
    (objectsOfAll (erasedAll ts)).map Schema.fieldNames =
      (objectsOfAll ts).map Schema.fieldNames
  | [] => rfl
  | t :: ts => by
      rw [erasedAll, objectsOfAll, objectsOfAll, List.map_append, List.map_append,
        Schema.map_fieldNames_erased, map_fieldNames_erasedAll ts]

end

/-- Field names stay distinct without counters. -/
theorem Schema.HasDistinctFields.erased {t : Schema} (h : t.HasDistinctFields) :
    t.erased.HasDistinctFields := by
  have hnames : ∀ names ∈ t.objects.map fieldNames, names.Nodup := List.forall_mem_map.mpr h
  rw [← Schema.map_fieldNames_erased] at hnames
  exact List.forall_mem_map.mp hnames

/-! ### Signatures determine erased schemas -/

/-- Fields whose signatures are those of others, in another order, have these very signatures when
the others are put into their order. -/
theorem exists_perm_of_fieldSignatures_perm {fs gs : List (Field Schema)}
    (h : (fieldSignatures fs).Perm (fieldSignatures gs)) :
    ∃ hs, fieldSignatures fs = fieldSignatures hs ∧ hs.Perm gs := by
  have hgs : List.Forall₂ (fun x g => x = (g.name, g.type.signature, g.optional))
      (fieldSignatures gs) gs := by
    rw [fieldSignatures_eq_map, List.forall₂_map_left_iff]
    exact List.forall₂_same.mpr fun _ _ => rfl
  obtain ⟨hs, hfs, hp⟩ := List.perm_comp_forall₂ h hgs
  refine ⟨hs, ?_, hp⟩
  rw [fieldSignatures_eq_map hs, ← List.forall₂_eq_eq_eq, List.forall₂_map_right_iff]
  exact hfs

mutual

/-- Structurally equal schemas are alike when they are erased. -/
theorem Schema.alike_of_signature_eq : ∀ {a b : Schema}, a.signature = b.signature →
    a.erased.Alike b.erased
  | .null, b, h | .bool, b, h | .int, b, h | .float, b, h | .string _, b, h | .timestamp, b, h => by
      cases b <;> cases h
      exact .refl _
  | .array e _, b, h => by
      cases b with
      | array f _ =>
          obtain ⟨he, rfl⟩ := Signature.array.inj h
          exact .array (Schema.alike_of_signature_eq he)
      | _ => cases h
  | .object n k fs, b, h => by
      cases b with
      | object m l gs =>
          -- sorting the fields of both gives the same, so the ones are the others in another order
          have hperm : (fieldSignatures fs).Perm (fieldSignatures gs) := by
            refine (List.mergeSort_perm _ fieldOrder).symm.trans ?_
            rw [Signature.object.inj h]
            exact List.mergeSort_perm _ _
          obtain ⟨hs, hsigs, hp⟩ := exists_perm_of_fieldSignatures_perm hperm
          refine .object (fieldsAlike_of_signatures_eq hsigs) ?_
          rw [erasedFields_eq_map, erasedFields_eq_map]
          exact hp.map _
      | _ => cases h
  | .optional t, b, h => by
      cases b with
      | optional u => exact .optional (Schema.alike_of_signature_eq (Signature.optional.inj h))
      | _ => cases h
  | .union ts, b, h => by
      cases b with
      | union us => exact .union (allAlike_of_signatures_eq (Signature.union.inj h))
      | _ => cases h

/-- Fields of the same structure are alike but for their counters. -/
theorem fieldsAlike_of_signatures_eq : ∀ {fs gs : List (Field Schema)},
    fieldSignatures fs = fieldSignatures gs → FieldsAlike (erasedFields fs) (erasedFields gs)
  | [], [], _ => .nil
  | [], _ :: _, h | _ :: _, [], h => by cases h
  | ⟨name, t, optional, _, _⟩ :: fs, ⟨name', u, optional', _, _⟩ :: gs, h => by
      obtain ⟨hfg, hs⟩ := List.cons.inj h
      obtain ⟨rfl, htu, rfl⟩ : name = name' ∧ t.signature = u.signature ∧ optional = optional' := by
        simpa using hfg
      exact .cons (Schema.alike_of_signature_eq htu) (fieldsAlike_of_signatures_eq hs)

/-- Schemas of the same structures are alike but for their counters. -/
theorem allAlike_of_signatures_eq : ∀ {ts us : List Schema}, signatures ts = signatures us →
    AllAlike (erasedAll ts) (erasedAll us)
  | [], [], _ => .nil
  | [], _ :: _, h | _ :: _, [], h => by cases h
  | t :: ts, u :: us, h => by
      obtain ⟨htu, hs⟩ := List.cons.inj h
      exact .cons (Schema.alike_of_signature_eq htu) (allAlike_of_signatures_eq hs)

end

/-! ### Signatures written as nested tuples -/

/-- Nested tuples of texts and truth values. -/
inductive Nested where
  | text (s : String)
  | flag (b : Bool)
  | tuple (items : List Nested)

/-- A tuple that starts with the word for a kind. -/
def Nested.tagged (kind : Kind) (items : List Nested) : Nested := .tuple (.text kind.label :: items)

mutual

/-- A signature as a nested tuple, with names, types and optionality of fields as tuples of three. -/
def Signature.nested : Signature → Nested
  | .leaf kind      => .tagged kind []
  | .string numeric => .tagged .string [.flag numeric]
  | .array e empty  => .tagged .array [e.nested, .flag empty]
  | .object fs      => .tagged .object [.tuple (nestedFields fs)]
  | .optional s     => .tagged .optional [s.nested]
  | .union ss       => .tagged .union [.tuple (nestedAll ss)]

/-- The fields of an object as nested tuples. -/
def nestedFields : List (String × Signature × Bool) → List Nested
  | [] => []
  | (name, s, optional) :: fs => .tuple [.text name, s.nested, .flag optional] :: nestedFields fs

/-- Several signatures as nested tuples. -/
def nestedAll : List Signature → List Nested
  | [] => []
  | s :: ss => s.nested :: nestedAll ss

end

theorem Kind.label_injective : Function.Injective Kind.label := by
  intro k l h
  cases k <;> cases l <;> simp_all [Kind.label]

@[simp] theorem Nested.tagged_inj {k l : Kind} {xs ys : List Nested} :
    tagged k xs = tagged l ys ↔ k = l ∧ xs = ys := by
  rw [tagged, tagged, Nested.tuple.injEq, List.cons.injEq, Nested.text.injEq,
    Kind.label_injective.eq_iff]

mutual

theorem Signature.eq_of_nested_eq : ∀ {a b : Signature}, a.nested = b.nested → a = b
  | .leaf _, b, h | .string _, b, h => by
      cases b <;> simp [Signature.nested] at h
      rw [h]
  | .array e _, b, h => by
      cases b <;> simp [Signature.nested] at h
      rw [Signature.eq_of_nested_eq h.1, h.2]
  | .object fs, b, h => by
      cases b <;> simp [Signature.nested] at h
      rw [eq_of_nestedFields_eq h]
  | .optional s, b, h => by
      cases b <;> simp [Signature.nested] at h
      rw [Signature.eq_of_nested_eq h]
  | .union ss, b, h => by
      cases b <;> simp [Signature.nested] at h
      rw [eq_of_nestedAll_eq h]

theorem eq_of_nestedFields_eq : ∀ {fs gs : List (String × Signature × Bool)},
    nestedFields fs = nestedFields gs → fs = gs
  | [], [], _ => rfl
  | [], _ :: _, h | _ :: _, [], h => by cases h
  | (_, s, _) :: fs, (_, t, _) :: gs, h => by
      simp only [nestedFields, List.cons.injEq, Nested.tuple.injEq, Nested.text.injEq,
        Nested.flag.injEq, and_true] at h
      obtain ⟨⟨rfl, hst, rfl⟩, hs⟩ := h
      rw [Signature.eq_of_nested_eq hst, eq_of_nestedFields_eq hs]

theorem eq_of_nestedAll_eq : ∀ {ss ts : List Signature}, nestedAll ss = nestedAll ts → ss = ts
  | [], [], _ => rfl
  | [], _ :: _, h | _ :: _, [], h => by cases h
  | s :: ss, t :: ts, h => by
      obtain ⟨hst, hs⟩ := List.cons.inj h
      rw [Signature.eq_of_nested_eq hst, eq_of_nestedAll_eq hs]

end

/-- Signatures are told apart by how they are written. -/
theorem Signature.nested_injective : Function.Injective Signature.nested :=
  fun _ _ => eq_of_nested_eq

/-! ### Structural equality -/

/-- **Signatures decide structural identity.**  A schema whose fields have distinct names has the
signature of another one exactly when the two are the same up to the order of fields, once the names
of objects and all counts are erased.  The same holds of their signatures as nested tuples. -/
theorem structurallyEqual_iff_alike {a b : Schema} (ha : a.HasDistinctFields) :
    (a.structurallyEqual b = true ↔ a.erased.Alike b.erased) ∧
      (a.signature.nested = b.signature.nested ↔ a.erased.Alike b.erased) := by
  have hiff : a.signature = b.signature ↔ a.erased.Alike b.erased := by
    refine ⟨Schema.alike_of_signature_eq, fun h => ?_⟩
    rw [← a.signature_erased, ← b.signature_erased]
    exact h.signature_eq_of_distinct ha.erased
  rw [Schema.structurallyEqual, decide_eq_true_iff, Signature.nested_injective.eq_iff]
  exact ⟨hiff, hiff⟩

/-- An order with an item, and a list of prices that may be missing or not. -/
def orderSchema (optional : Bool) : Schema :=
  .union [
    .array (.object none 4 [⟨"price", .optional .float, optional, 3, 4⟩]) false,
    .object none 2 [⟨"id", .int, false, 2, 2⟩,
      ⟨"item", .object none 2 [⟨"sku", .string false, false, 2, 2⟩,
        ⟨"notes", .array .null true, false, 2, 2⟩], false, 2, 2⟩]]

/-- The same with names, with other counts, and with fields in another order. -/
def namedOrderSchema : Schema :=
  .union [
    .array (.object (some "RootItem") 9 [⟨"price", .optional .float, true, 1, 9⟩]) false,
    .object (some "Root") 1 [⟨"item", .object (some "Item") 1 [
        ⟨"notes", .array .null true, false, 1, 1⟩, ⟨"sku", .string false, false, 1, 1⟩],
        false, 1, 1⟩, ⟨"id", .int, false, 1, 1⟩]]

/-- The orders are told apart by whether prices may be missing, and by neither names nor counts nor
the order of fields. -/
theorem alike_of_orders : (orderSchema true).HasDistinctFields ∧
    (orderSchema true).erased.Alike namedOrderSchema.erased ∧
      (orderSchema true).signature.nested = namedOrderSchema.signature.nested ∧
        ¬(orderSchema true).erased.Alike (orderSchema false).erased := by
  have hdistinct : (orderSchema true).HasDistinctFields := by decide
  have halike : (orderSchema true).erased.Alike namedOrderSchema.erased := by
    refine .union (.cons (.refl _) (.cons ?_ .nil))
    refine .object (.cons (.refl _) (.cons ?_ .nil)) (.swap _ _ _)
    exact .object (.cons (.refl _) (.cons (.refl _) .nil)) (.swap _ _ _)
  have hother : (orderSchema true).structurallyEqual (orderSchema false) = false := by
    simp [orderSchema, Schema.structurallyEqual, Schema.signature, signatures, fieldSignatures]
  refine ⟨hdistinct, halike, (structurallyEqual_iff_alike hdistinct).2.mpr halike, fun h => ?_⟩
  rw [(structurallyEqual_iff_alike hdistinct).1.mpr h] at hother
  cases hother

end SampleSchema
