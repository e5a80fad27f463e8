import SampleSchema.Proofs.Objects
import SampleSchema.Proofs.WellFormed

/-!
# Schemas up to the order of fields

Two schemas are alike when one becomes the other by putting the fields of objects, at any depth, into
another order (`Schema.Alike`).  Corresponding objects and fields have the same counts, and the same
fields are optional.  Where the fields of every object have distinct names
(`Schema.HasDistinctFields`), alike schemas are structurally equal
(`Schema.Alike.signature_eq_of_distinct`).
-/

namespace SampleSchema

mutual

/-- Whether two schemas are the same but for the order of fields inside objects. -/
inductive Schema.Alike : Schema → Schema → Prop where
  | refl (t : Schema) : Schema.Alike t t
  | array {e f : Schema} {empty : Bool} (h : e.Alike f) :
      Schema.Alike (.array e empty) (.array f empty)
  | object {name : Option String} {samples : Int} {fs gs hs : List (Field Schema)}
      (h : FieldsAlike fs gs) (hp : gs.Perm hs) :
      Schema.Alike (.object name samples fs) (.object name samples hs)
  | optional {t u : Schema} (h : t.Alike u) : Schema.Alike (.optional t) (.optional u)
  | union {ts us : List Schema} (h : AllAlike ts us) : Schema.Alike (.union ts) (.union us)

/-- Whether fields have alike types one by one, and are the same otherwise. -/
inductive FieldsAlike : List (Field Schema) → List (Field Schema) → Prop where
  | nil : FieldsAlike [] []
  | cons {name : String} {t u : Schema} {optional : Bool} {observed total : Int}
      {fs gs : List (Field Schema)} (h : t.Alike u) (hs : FieldsAlike fs gs) :
      FieldsAlike (⟨name, t, optional, observed, total⟩ :: fs)
        (⟨name, u, optional, observed, total⟩ :: gs)

/-- Whether schemas are alike one by one. -/
inductive AllAlike : List Schema → List Schema → Prop where
  | nil : AllAlike [] []
  | cons {t u : Schema} {ts us : List Schema} (h : t.Alike u) (hs : AllAlike ts us) :
      AllAlike (t :: ts) (u :: us)

end

theorem AllAlike.of_forall₂ : ∀ {ts us : List Schema}, List.Forall₂ Schema.Alike ts us →
    AllAlike ts us
  | _, _, .nil       => .nil
  | _, _, .cons h hs => .cons h (AllAlike.of_forall₂ hs)

theorem Schema.Alike.isCongruence : IsCongruence Schema.Alike :=
  ⟨.refl, .optional, fun h => .union (.of_forall₂ h)⟩

/-- What parts make is alike when the parts are, bucket by bucket. -/
theorem Parts.assemble_alike (nullable : Bool) {p q : Parts} (hb : p.bool = q.bool)
    (hn : p.number = q.number) (hs : p.string = q.string)
    (ha : Option.Rel (fun a b => a.toSchema.Alike b.toSchema) p.array q.array)
    (ho : Option.Rel (fun a b => a.toSchema.Alike b.toSchema) p.object q.object) :
    (p.assemble nullable).Alike (q.assemble nullable) := by
  refine Schema.Alike.isCongruence.assemble nullable hb ?_ ?_ ha ho
  · rw [hn]
    cases q.number with
    | none => exact .none
    | some n => exact .some (.refl _)
  · rw [hs]
    cases q.string with
    | none => exact .none
    | some s => exact .some (.refl _)

/-! ### Fields of distinct names -/

/-- The names of the fields of an object. -/
def Schema.fieldNames : Schema → List String
  | .object _ _ fs => fs.map Field.name
  | _ => []

/-- Whether the fields of every object have distinct names. -/
def Schema.HasDistinctFields (t : Schema) : Prop := ∀ u ∈ t.objects, u.fieldNames.Nodup

instance (t : Schema) : Decidable t.HasDistinctFields :=
  inferInstanceAs (Decidable (∀ u ∈ t.objects, u.fieldNames.Nodup))

section
variable {k : Conditions}

mutual

/-- Where the fields of well-formed objects have distinct names, so have those of every object inside
a well-formed schema. -/
theorem Schema.WellFormed.hasDistinctFields
    (hk : ∀ p, k.object p → (p.fields.map Field.name).Nodup) : ∀ {t : Schema}, t.WellFormed k →
      t.HasDistinctFields
  | .null, _ | .bool, _ | .int, _ | .float, _ | .string _, _ | .timestamp, _ => List.forall_mem_nil _
  | .array e _, ht => Schema.WellFormed.hasDistinctFields hk (t := e) ht.2
  | .optional t, ht => Schema.WellFormed.hasDistinctFields hk (t := t) ht.2
  | .union _, ht => hasDistinctFieldsOfAll hk ht.2
  | .object _ _ _, ht => List.forall_mem_append.mpr
      ⟨hasDistinctFieldsOfFields hk ht.2, List.forall_mem_singleton.mpr (hk _ ht.1)⟩

theorem hasDistinctFieldsOfFields (hk : ∀ p, k.object p → (p.fields.map Field.name).Nodup) :
    ∀ {fs : List (Field Schema)}, fieldsWellFormed k fs →
      ∀ u ∈ objectsOfFields fs, u.fieldNames.Nodup
  | [], _ => List.forall_mem_nil _
  | _ :: _, hw => List.forall_mem_append.mpr
      ⟨Schema.WellFormed.hasDistinctFields hk hw.1, hasDistinctFieldsOfFields hk hw.2⟩

theorem hasDistinctFieldsOfAll (hk : ∀ p, k.object p → (p.fields.map Field.name).Nodup) :
    ∀ {ts : List Schema}, allWellFormed k ts → ∀ u ∈ objectsOfAll ts, u.fieldNames.Nodup
  | [], _ => List.forall_mem_nil _
  | _ :: _, hw => List.forall_mem_append.mpr
      ⟨Schema.WellFormed.hasDistinctFields hk hw.1, hasDistinctFieldsOfAll hk hw.2⟩

end

end

/-! ### Structural equality -/

mutual

/-- Alike schemas are structurally equal where names are distinct. -/
theorem Schema.Alike.signature_eq_of_distinct : ∀ {t u : Schema}, t.Alike u → t.HasDistinctFields →
    t.signature = u.signature
  | _, _, .refl _, _ => rfl
  | _, _, .array h, ht => by rw [Schema.signature, Schema.signature, h.signature_eq_of_distinct ht]
  | _, _, @Schema.Alike.object _ _ fs gs hs h hp, ht => by
      obtain ⟨hinside, hself⟩ := List.forall_mem_append.mp ht
      obtain ⟨hnames, hsigs⟩ := h.fieldSignatures_eq hinside
      have hperm : (fieldSignatures gs).Perm (fieldSignatures hs) := by
        rw [fieldSignatures_eq_map, fieldSignatures_eq_map]
        exact hp.map _
      have hfs : (fs.map Field.name).Nodup := hself _ (List.mem_singleton_self _)
      have hhs : (hs.map Field.name).Nodup := (hp.map Field.name).nodup_iff.mp (hnames ▸ hfs)
      exact signature_object_eq hfs hhs fun x => by rw [hsigs, hperm.mem_iff]
  | _, _, .optional h, ht => by
      rw [Schema.signature, Schema.signature, h.signature_eq_of_distinct ht]
  | _, _, .union h, ht => by rw [Schema.signature, Schema.signature, h.signatures_eq ht]

theorem FieldsAlike.fieldSignatures_eq : ∀ {fs gs : List (Field Schema)}, FieldsAlike fs gs →
    (∀ u ∈ objectsOfFields fs, u.fieldNames.Nodup) →
      fs.map Field.name = gs.map Field.name ∧ fieldSignatures fs = fieldSignatures gs
  | _, _, .nil, _ => ⟨rfl, rfl⟩
  | _, _, .cons h hs, hd => by
      obtain ⟨ht, hfs⟩ := List.forall_mem_append.mp hd
      obtain ⟨hnames, hsigs⟩ := hs.fieldSignatures_eq hfs
      rw [List.map_cons, List.map_cons, hnames, fieldSignatures, fieldSignatures, hsigs,
        h.signature_eq_of_distinct ht]
      exact ⟨rfl, rfl⟩

theorem AllAlike.signatures_eq : ∀ {ts us : List Schema}, AllAlike ts us →
    (∀ u ∈ objectsOfAll ts, u.fieldNames.Nodup) → signatures ts = signatures us
  | _, _, .nil, _ => rfl
  | _, _, .cons h hs, hd => by
      obtain ⟨ht, hts⟩ := List.forall_mem_append.mp hd
      rw [signatures, signatures, h.signature_eq_of_distinct ht, hs.signatures_eq hts]

end

/-- Alike schemas are structurally equal where well-formed objects have distinct names. -/
theorem Schema.Alike.signature_eq {k : Conditions}
    (hk : ∀ p, k.object p → (p.fields.map Field.name).Nodup) {t u : Schema} (h : t.Alike u)
    (ht : t.WellFormed k) : t.signature = u.signature :=
  h.signature_eq_of_distinct (ht.hasDistinctFields hk)

end SampleSchema
