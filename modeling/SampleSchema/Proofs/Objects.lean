import SampleSchema.Proofs.StructuralEquality
import SampleSchema.Naming

/-!
# The objects of a schema

`Schema.objects` lists the objects of a schema in post-order: an object comes after those inside it.
Which structures they have depends on the structure of the schema alone (`mem_objects_signature`),
and what stands inside an object has another structure than the object (`signature_ne_of_inside`).

A schema is named by definitions when its outermost objects are replaced by definitions of their
structure (`Schema.NamedBy`).  That keeps the structure of the schema (`Schema.NamedBy.signature_eq`).
-/

namespace SampleSchema

/-! ### The objects of schemas and of structures -/

mutual

/-- The objects of a schema, the inner ones first. -/
def Schema.objects : Schema → List Schema
  | .array e _     => e.objects
  | .object n k fs => objectsOfFields fs ++ [.object n k fs]
  | .optional t    => t.objects
  | .union ts      => objectsOfAll ts
  | .null | .bool | .int | .float | .string _ | .timestamp => []

/-- The objects of the types of fields. -/
def objectsOfFields : List (Field Schema) → List Schema
  | [] => []
  | ⟨_, type, _, _, _⟩ :: fs => type.objects ++ objectsOfFields fs

/-- The objects of a list of schemas. -/
def objectsOfAll : List Schema → List Schema
  | [] => []
  | t :: ts => t.objects ++ objectsOfAll ts

end

mutual

/-- The structures of objects inside a structure, the inner ones first. -/
def Signature.objects : Signature → List Signature
  | .array e _   => e.objects
  | .object fs   => objectsOfEntries fs ++ [.object fs]
  | .optional s  => s.objects
  | .union ss    => objectsOfSignatures ss
  | .leaf _ | .string _ => []

/-- The structures of objects inside the types of fields. -/
def objectsOfEntries : List (String × Signature × Bool) → List Signature
  | [] => []
  | (_, s, _) :: fs => s.objects ++ objectsOfEntries fs

/-- The structures of objects inside a list of structures. -/
def objectsOfSignatures : List Signature → List Signature
  | [] => []
  | s :: ss => s.objects ++ objectsOfSignatures ss

end

theorem mem_objectsOfFields_iff {u : Schema} : ∀ {fs : List (Field Schema)},
    u ∈ objectsOfFields fs ↔ ∃ f ∈ fs, u ∈ f.type.objects
  | [] => by simp [objectsOfFields]
  | f :: fs => by simp [objectsOfFields, @mem_objectsOfFields_iff u fs]

theorem mem_objectsOfEntries_iff {x : Signature} : ∀ {fs : List (String × Signature × Bool)},
    x ∈ objectsOfEntries fs ↔ ∃ f ∈ fs, x ∈ f.2.1.objects
  | [] => by simp [objectsOfEntries]
  | f :: fs => by simp [objectsOfEntries, @mem_objectsOfEntries_iff x fs]

/-- Sorting fields by name keeps the structures inside them. -/
theorem mem_objectsOfEntries_mergeSort {x : Signature} {fs : List (String × Signature × Bool)} :
    x ∈ objectsOfEntries (fs.mergeSort fieldOrder) ↔ x ∈ objectsOfEntries fs := by
  simp only [mem_objectsOfEntries_iff, List.mem_mergeSort]

mutual

/-- Objects of objects are objects. -/
theorem Schema.mem_objects_trans {u v : Schema} (hu : u ∈ v.objects) : ∀ (t : Schema),
    v ∈ t.objects → u ∈ t.objects
  | .null, h | .bool, h | .int, h | .float, h | .string _, h | .timestamp, h => by cases h
  | .array e _, h => Schema.mem_objects_trans hu e h
  | .optional t, h => Schema.mem_objects_trans hu t h
  | .union ts, h => mem_objectsOfAll_trans hu ts h
  | .object n k fs, h => by
      rcases List.mem_append.mp h with h | h
      · exact List.mem_append_left _ (mem_objectsOfFields_trans hu fs h)
      · rwa [List.mem_singleton.mp h] at hu

/-- The objects of an object of some fields are objects of the fields. -/
theorem mem_objectsOfFields_trans {u v : Schema} (hu : u ∈ v.objects) :
    ∀ (fs : List (Field Schema)), v ∈ objectsOfFields fs → u ∈ objectsOfFields fs
  | [], h => by cases h
  | f :: fs, h => by
      rcases List.mem_append.mp h with h | h
      · exact List.mem_append_left _ (Schema.mem_objects_trans hu f.type h)
      · exact List.mem_append_right _ (mem_objectsOfFields_trans hu fs h)

/-- The objects of an object of some schemas are objects of the schemas. -/
theorem mem_objectsOfAll_trans {u v : Schema} (hu : u ∈ v.objects) : ∀ (ts : List Schema),
    v ∈ objectsOfAll ts → u ∈ objectsOfAll ts
  | [], h => by cases h
  | t :: ts, h => by
      rcases List.mem_append.mp h with h | h
      · exact List.mem_append_left _ (Schema.mem_objects_trans hu t h)
      · exact List.mem_append_right _ (mem_objectsOfAll_trans hu ts h)

end

mutual

/-- The structures of the objects of a schema are those of the objects inside its structure. -/
theorem mem_objects_signature {x : Signature} : ∀ {t : Schema},
    x ∈ t.signature.objects ↔ x ∈ t.objects.map Schema.signature
  | .null | .bool | .int | .float | .string _ | .timestamp => Iff.rfl
  | .array e _ => @mem_objects_signature x e
  | .optional t => @mem_objects_signature x t
  | .union ts => @mem_objectsOfSignatures_signatures x ts
  | .object n k fs => by
      rw [Schema.objects, List.map_append, List.mem_append, List.map_singleton,
        List.mem_singleton, ← mem_objectsOfEntries_fieldSignatures, Schema.signature,
        Signature.objects, List.mem_append, List.mem_singleton, mem_objectsOfEntries_mergeSort]

/-- The structures of objects in fields are objects of the structures of the fields. -/
theorem mem_objectsOfEntries_fieldSignatures {x : Signature} : ∀ {fs : List (Field Schema)},
    x ∈ objectsOfEntries (fieldSignatures fs) ↔ x ∈ (objectsOfFields fs).map Schema.signature
  | [] => Iff.rfl
  | f :: fs => by
      rw [fieldSignatures, objectsOfEntries, objectsOfFields, List.map_append, List.mem_append,
        List.mem_append, mem_objects_signature, mem_objectsOfEntries_fieldSignatures]

/-- The structures of objects in schemas are objects of their structures. -/
theorem mem_objectsOfSignatures_signatures {x : Signature} : ∀ {ts : List Schema},
    x ∈ objectsOfSignatures (signatures ts) ↔ x ∈ (objectsOfAll ts).map Schema.signature
  | [] => Iff.rfl
  | t :: ts => by
      rw [signatures, objectsOfSignatures, objectsOfAll, List.map_append, List.mem_append,
        List.mem_append, mem_objects_signature, mem_objectsOfSignatures_signatures]

end

/-! ### What is inside is smaller -/

mutual

/-- An object of a structure is not larger than the structure. -/
theorem sizeOf_le_of_mem_objects {x : Signature} : ∀ {s : Signature}, x ∈ s.objects →
    sizeOf x ≤ sizeOf s
  | .array e _, h => by
      have : sizeOf x ≤ sizeOf e := sizeOf_le_of_mem_objects h
      rw [Signature.array.sizeOf_spec]
      omega
  | .optional s, h => by
      have : sizeOf x ≤ sizeOf s := sizeOf_le_of_mem_objects h
      rw [Signature.optional.sizeOf_spec]
      omega
  | .union ss, h => by
      have : sizeOf x < sizeOf ss := sizeOf_lt_of_mem_objectsOfSignatures h
      rw [Signature.union.sizeOf_spec]
      omega
  | .object fs, h => by
      rcases List.mem_append.mp h with h | h
      · have := sizeOf_lt_of_mem_objectsOfEntries h
        rw [Signature.object.sizeOf_spec]
        omega
      · exact Nat.le_of_eq (congrArg sizeOf (List.mem_singleton.mp h))

/-- An object of fields is smaller than the fields. -/
theorem sizeOf_lt_of_mem_objectsOfEntries {x : Signature} :
    ∀ {fs : List (String × Signature × Bool)}, x ∈ objectsOfEntries fs → sizeOf x < sizeOf fs
  | (_, s, _) :: fs, h => by
      simp only [List.cons.sizeOf_spec, Prod.mk.sizeOf_spec]
      rcases List.mem_append.mp h with h | h
      · have := sizeOf_le_of_mem_objects h
        omega
      · have := sizeOf_lt_of_mem_objectsOfEntries h
        omega

theorem sizeOf_lt_of_mem_objectsOfSignatures {x : Signature} :
    ∀ {ss : List Signature}, x ∈ objectsOfSignatures ss → sizeOf x < sizeOf ss
  | s :: ss, h => by
      rw [List.cons.sizeOf_spec]
      rcases List.mem_append.mp h with h | h
      · have := sizeOf_le_of_mem_objects h
        omega
      · have := sizeOf_lt_of_mem_objectsOfSignatures h
        omega

end

/-- An object inside the fields of another has another structure. -/
theorem signature_ne_of_inside {n : Option String} {k : Int} {fs : List (Field Schema)}
    {u : Schema} (h : u ∈ objectsOfFields fs) :
    u.signature ≠ (Schema.object n k fs).signature := by
  intro e
  have hmem : u.signature ∈ objectsOfEntries ((fieldSignatures fs).mergeSort fieldOrder) :=
    mem_objectsOfEntries_mergeSort.mpr
      (mem_objectsOfEntries_fieldSignatures.mpr (List.mem_map_of_mem h))
  have hlt := sizeOf_lt_of_mem_objectsOfEntries hmem
  rw [e, Schema.signature, Signature.object.sizeOf_spec] at hlt
  omega

/-! ### Schemas named by definitions -/

/-- The structure that a definition defines. -/
def Definition.signature (d : Definition) : Signature := d.toSchema.signature

section
variable (ds : List Definition)

mutual

/-- Whether a schema becomes another one by putting definitions of their structure in the place of
its outermost objects. -/
inductive Schema.NamedBy : Schema → Schema → Prop where
  | same {t : Schema} (h : t.objects = []) : Schema.NamedBy t t
  | array {e e' : Schema} {empty : Bool} (h : e.NamedBy e') :
      Schema.NamedBy (.array e empty) (.array e' empty)
  | object {name : Option String} {samples : Int} {fields : List (Field Schema)} {d : Definition}
      (hd : d ∈ ds) (h : d.signature = (Schema.object name samples fields).signature) :
      Schema.NamedBy (.object name samples fields) d.toSchema
  | optional {t t' : Schema} (h : t.NamedBy t') : Schema.NamedBy (.optional t) (.optional t')
  | union {ts ts' : List Schema} (h : AllNamedBy ts ts') : Schema.NamedBy (.union ts) (.union ts')

/-- Whether schemas are named one by one. -/
inductive AllNamedBy : List Schema → List Schema → Prop where
  | nil : AllNamedBy [] []
  | cons {t t' : Schema} {ts ts' : List Schema} (h : t.NamedBy t') (hs : AllNamedBy ts ts') :
      AllNamedBy (t :: ts) (t' :: ts')

end

/-- Whether the types of fields are named one by one, and the fields are the same otherwise. -/
inductive FieldsNamedBy : List (Field Schema) → List (Field Schema) → Prop where
  | nil : FieldsNamedBy [] []
  | cons {name : String} {t t' : Schema} {optional : Bool} {observed total : Int}
      {fs fs' : List (Field Schema)} (h : t.NamedBy ds t') (hs : FieldsNamedBy fs fs') :
      FieldsNamedBy (⟨name, t, optional, observed, total⟩ :: fs)
        (⟨name, t', optional, observed, total⟩ :: fs')

end

section
variable {ds es : List Definition}

mutual

theorem Schema.NamedBy.mono (h : ds ⊆ es) : ∀ {t u : Schema}, t.NamedBy ds u → t.NamedBy es u
  | _, _, .same ht    => .same ht
  | _, _, .array ht   => .array (ht.mono h)
  | _, _, .object hd hs => .object (h hd) hs
  | _, _, .optional ht  => .optional (ht.mono h)
  | _, _, .union hts    => .union (hts.mono h)

theorem AllNamedBy.mono (h : ds ⊆ es) : ∀ {ts us : List Schema}, AllNamedBy ds ts us →
    AllNamedBy es ts us
  | _, _, .nil        => .nil
  | _, _, .cons ht hs => .cons (ht.mono h) (hs.mono h)

end

theorem FieldsNamedBy.mono (h : ds ⊆ es) {fs gs : List (Field Schema)}
    (hf : FieldsNamedBy ds fs gs) : FieldsNamedBy es fs gs := by
  induction hf with
  | nil => exact .nil
  | cons ht _ ih => exact .cons (ht.mono h) ih

mutual

/-- Naming a schema keeps its structure. -/
theorem Schema.NamedBy.signature_eq : ∀ {t u : Schema}, t.NamedBy ds u →
    u.signature = t.signature
  | _, _, .same _      => rfl
  | _, _, .array h     => by rw [Schema.signature, Schema.signature, h.signature_eq]
  | _, _, .object _ h  => h
  | _, _, .optional h  => by rw [Schema.signature, Schema.signature, h.signature_eq]
  | _, _, .union h     => by rw [Schema.signature, Schema.signature, h.signatures_eq]

/-- Naming keeps the structures of several schemas. -/
theorem AllNamedBy.signatures_eq : ∀ {ts us : List Schema}, AllNamedBy ds ts us →
    signatures us = signatures ts
  | _, _, .nil       => rfl
  | _, _, .cons h hs => by rw [signatures, signatures, h.signature_eq, hs.signatures_eq]

end

/-- Naming keeps the structures of fields. -/
theorem FieldsNamedBy.fieldSignatures_eq {fs gs : List (Field Schema)}
    (h : FieldsNamedBy ds fs gs) : fieldSignatures gs = fieldSignatures fs := by
  induction h with
  | nil => rfl
  | cons h _ ih => rw [fieldSignatures, fieldSignatures, h.signature_eq, ih]

mutual

/-- Every object of a named schema is an object of one of the definitions. -/
theorem Schema.NamedBy.mem_objects {v : Schema} : ∀ {t u : Schema}, t.NamedBy ds u →
    v ∈ u.objects → ∃ d ∈ ds, v ∈ d.toSchema.objects
  | _, _, .same h, hv => by
      rw [h] at hv
      cases hv
  | _, _, .array h, hv => h.mem_objects hv
  | _, _, .object hd _, hv => ⟨_, hd, hv⟩
  | _, _, .optional h, hv => h.mem_objects hv
  | _, _, .union h, hv => h.mem_objects hv

/-- An object of named schemas is inside of a definition. -/
theorem AllNamedBy.mem_objects {v : Schema} : ∀ {ts us : List Schema}, AllNamedBy ds ts us →
    v ∈ objectsOfAll us → ∃ d ∈ ds, v ∈ d.toSchema.objects
  | _, _, .nil, hv => by cases hv
  | _, _, .cons h hs, hv => by
      rcases List.mem_append.mp hv with hv | hv
      · exact h.mem_objects hv
      · exact hs.mem_objects hv

end

theorem FieldsNamedBy.mem_objects {v : Schema} {fs gs : List (Field Schema)}
    (h : FieldsNamedBy ds fs gs) (hv : v ∈ objectsOfFields gs) :
    ∃ d ∈ ds, v ∈ d.toSchema.objects := by
  induction h with
  | nil => cases hv
  | cons h _ ih =>
      rcases List.mem_append.mp hv with hv | hv
      · exact h.mem_objects hv
      · exact ih hv

end

end SampleSchema
