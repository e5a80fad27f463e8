import SampleSchema.Proofs.Objects
import SampleSchema.Proofs.WellFormed

/-!
# The occurrences of objects

Naming walks a schema in post-order and meets every object at the end of a path of words, from which
the name of the object is made (`Schema.occurrences`).  Several objects can have one path, such as the
elements of nested arrays.

* `Schema.path_of_mem_occurrences`: what continuing a path keeps holds of the paths to all objects.
* `Schema.occursIn_of_mem`: an object occurs as the object part of a well-formed schema, in a field
  of that part, or in the element of the array part.
-/

namespace SampleSchema

/-- A path into a schema: its words, and whether it leads through an array. -/
structure WordPath where
  words   : List String
  inArray : Bool

namespace WordPath

/-- The path to the whole schema. -/
def top : WordPath := ⟨[], false⟩

/-- The path to the elements of an array. -/
def element (root : String) (here : WordPath) : WordPath := ⟨elementWords root here.words, true⟩

/-- The path to a field of an object. -/
def field (here : WordPath) (name : String) : WordPath :=
  ⟨here.words ++ [typeName name], here.inArray⟩

end WordPath

/-- An object of a schema at the end of its path. -/
structure Occurrence extends WordPath where
  object : Schema

/-- The structure of the object. -/
def Occurrence.signature (p : Occurrence) : Signature := p.object.signature

/-- The failure to find a name for the object. -/
def Occurrence.collision (root : String) (p : Occurrence) : NameCollision :=
  ⟨p.words.getLast?.getD root, ".".intercalate p.words⟩

section
variable (root : String)

mutual

/-- The objects of a schema at the end of a path, with the paths to them, the inner ones first. -/
def Schema.occurrences (here : WordPath) : Schema → List Occurrence
  | .array e _     => e.occurrences (here.element root)
  | .object n k fs => occurrencesOfFields here fs ++ [⟨here, .object n k fs⟩]
  | .optional t    => t.occurrences here
  | .union ts      => occurrencesOfAll here ts
  | .null | .bool | .int | .float | .string _ | .timestamp => []

/-- The objects of the types of fields, with the paths to them. -/
def occurrencesOfFields (here : WordPath) : List (Field Schema) → List Occurrence
  | [] => []
  | ⟨name, type, _, _, _⟩ :: fs => type.occurrences (here.field name) ++ occurrencesOfFields here fs

/-- The objects of a list of schemas at the end of one path, with the paths to them. -/
def occurrencesOfAll (here : WordPath) : List Schema → List Occurrence
  | [] => []
  | t :: ts => t.occurrences here ++ occurrencesOfAll here ts

end

end

section
variable (root : String)

mutual

/-- Every object has its occurrence. -/
theorem Schema.map_object_occurrences : ∀ (here : WordPath) (t : Schema),
    (t.occurrences root here).map Occurrence.object = t.objects
  | _, .null | _, .bool | _, .int | _, .float | _, .string _ | _, .timestamp => rfl
  | here, .array e _ => Schema.map_object_occurrences (here.element root) e
  | here, .optional t => Schema.map_object_occurrences here t
  | here, .union ts => map_object_occurrencesOfAll here ts
  | here, .object n k fs => by
      rw [Schema.occurrences, Schema.objects, List.map_append, map_object_occurrencesOfFields,
        List.map_singleton]

/-- The occurrences in fields are of their objects. -/
theorem map_object_occurrencesOfFields : ∀ (here : WordPath) (fs : List (Field Schema)),
    (occurrencesOfFields root here fs).map Occurrence.object = objectsOfFields fs
  | _, [] => rfl
  | here, f :: fs => by
      rw [occurrencesOfFields, objectsOfFields, List.map_append, Schema.map_object_occurrences,
        map_object_occurrencesOfFields]

/-- The occurrences in several schemas are of their objects. -/
theorem map_object_occurrencesOfAll : ∀ (here : WordPath) (ts : List Schema),
    (occurrencesOfAll root here ts).map Occurrence.object = objectsOfAll ts
  | _, [] => rfl
  | here, t :: ts => by
      rw [occurrencesOfAll, objectsOfAll, List.map_append, Schema.map_object_occurrences,
        map_object_occurrencesOfAll]

end

/-- The structures of occurrences are those of the objects. -/
theorem map_signature_occurrences (here : WordPath) (t : Schema) :
    (t.occurrences root here).map Occurrence.signature = t.objects.map Schema.signature := by
  rw [← Schema.map_object_occurrences root here t, List.map_map]
  rfl

theorem map_signature_occurrencesOfFields (here : WordPath) (fs : List (Field Schema)) :
    (occurrencesOfFields root here fs).map Occurrence.signature =
      (objectsOfFields fs).map Schema.signature := by
  rw [← map_object_occurrencesOfFields root here fs, List.map_map]
  rfl

end

/-! ### Paths -/

/-- Whether a property of paths is kept by continuing them. -/
structure WordPath.Inherited (root : String) (P : WordPath → Prop) : Prop where
  element : ∀ {here : WordPath}, P here → P (here.element root)
  field   : ∀ {here : WordPath} {name : String}, P here → P (here.field name)

section
variable {root : String} {P : WordPath → Prop}

mutual

/-- What a path hands on to its continuations holds of the paths to all objects at its end. -/
theorem Schema.path_of_mem_occurrences (hP : WordPath.Inherited root P) : ∀ (t : Schema)
    {here : WordPath} {p : Occurrence}, P here → p ∈ t.occurrences root here → P p.toWordPath
  | .null, _, _, _, h | .bool, _, _, _, h | .int, _, _, _, h | .float, _, _, _, h
  | .string _, _, _, _, h | .timestamp, _, _, _, h => by cases h
  | .array e _, _, _, hhere, h => Schema.path_of_mem_occurrences hP e (hP.element hhere) h
  | .optional t, _, _, hhere, h => Schema.path_of_mem_occurrences hP t hhere h
  | .union ts, _, _, hhere, h => path_of_mem_occurrencesOfAll hP ts hhere h
  | .object n k fs, _, _, hhere, h => by
      rcases List.mem_append.mp h with h | h
      · exact path_of_mem_occurrencesOfFields hP fs hhere h
      · rw [List.mem_singleton.mp h]
        exact hhere

/-- What a path hands on holds of all occurrences in fields. -/
theorem path_of_mem_occurrencesOfFields (hP : WordPath.Inherited root P) :
    ∀ (fs : List (Field Schema)) {here : WordPath} {p : Occurrence}, P here →
      p ∈ occurrencesOfFields root here fs → P p.toWordPath
  | [], _, _, _, h => by cases h
  | f :: fs, _, _, hhere, h => by
      rcases List.mem_append.mp h with h | h
      · exact Schema.path_of_mem_occurrences hP f.type (hP.field hhere) h
      · exact path_of_mem_occurrencesOfFields hP fs hhere h

/-- What a path hands on holds of all occurrences in several schemas. -/
theorem path_of_mem_occurrencesOfAll (hP : WordPath.Inherited root P) : ∀ (ts : List Schema)
    {here : WordPath} {p : Occurrence}, P here → p ∈ occurrencesOfAll root here ts → P p.toWordPath
  | [], _, _, _, h => by cases h
  | t :: ts, _, _, hhere, h => by
      rcases List.mem_append.mp h with h | h
      · exact Schema.path_of_mem_occurrences hP t hhere h
      · exact path_of_mem_occurrencesOfAll hP ts hhere h

end

end

/-! ### Occurrences and parts -/

section
variable {root : String} {here : WordPath} {p : Occurrence}

theorem mem_occurrencesOfFields_iff {fs : List (Field Schema)} :
    p ∈ occurrencesOfFields root here fs ↔
      ∃ f ∈ fs, p ∈ f.type.occurrences root (here.field f.name) := by
  induction fs with
  | nil => simp [occurrencesOfFields]
  | cons f fs ih => simp [occurrencesOfFields, ih]

theorem mem_occurrencesOfAll_iff {ts : List Schema} :
    p ∈ occurrencesOfAll root here ts ↔ ∃ t ∈ ts, p ∈ t.occurrences root here := by
  induction ts with
  | nil => simp [occurrencesOfAll]
  | cons t ts ih => simp [occurrencesOfAll, ih]

variable (root here) in
/-- How an object occurs in a schema, by the parts of the schema. -/
inductive Schema.OccursIn (t : Schema) : Occurrence → Prop where
  | own {o : ObjectPart} (ho : t.parts.object = some o) : OccursIn t ⟨here, o.toSchema⟩
  | field {o : ObjectPart} {f : Field Schema} {p : Occurrence} (ho : t.parts.object = some o)
      (hf : f ∈ o.fields) (hp : p ∈ f.type.occurrences root (here.field f.name)) : OccursIn t p
  | element {a : ArrayPart} {p : Occurrence} (ha : t.parts.array = some a)
      (hp : p ∈ a.element.occurrences root (here.element root)) : OccursIn t p

/-- A variant of a union brings its part to the parts of the union. -/
theorem IsChoice.variant?_eq_some {ts : List Schema} (h : IsChoice ts) {t v : Schema} (ht : t ∈ ts)
    {b : Bucket} (hv : t.parts.variant? b = some v) : (partsOfAll ts).variant? b = some v := by
  obtain ⟨c, hc⟩ := h.exists_bucket ht
  rw [Parts.variant?_parts hc] at hv
  split at hv <;> cases hv
  subst b
  exact (Parts.mem_toList_iff_of_bucket hc).mp ((h.mem_toList_iff t).mpr ht)

theorem Parts.object_eq_some_iff {q : Parts} {o : ObjectPart} :
    q.object = some o ↔ q.variant? .object = some o.toSchema := by
  rw [variant?, Option.map_eq_some_iff]
  obtain ⟨name, samples, fields⟩ := o
  constructor
  · exact fun h => ⟨_, h, rfl⟩
  · rintro ⟨⟨_, _, _⟩, h, e⟩
    cases e
    exact h

theorem Parts.array_eq_some_iff {q : Parts} {a : ArrayPart} :
    q.array = some a ↔ q.variant? .array = some a.toSchema := by
  rw [variant?, Option.map_eq_some_iff]
  obtain ⟨element, empty⟩ := a
  constructor
  · exact fun h => ⟨_, h, rfl⟩
  · rintro ⟨⟨_, _⟩, h, e⟩
    cases e
    exact h

/-- An object occurs in a union as it does in one of the variants. -/
theorem IsChoice.occursIn {ts : List Schema} (h : IsChoice ts) {t : Schema} (ht : t ∈ ts)
    (hp : t.OccursIn root here p) : (Schema.union ts).OccursIn root here p := by
  cases hp with
  | own ho =>
      exact .own (Parts.object_eq_some_iff.mpr
        (h.variant?_eq_some ht (Parts.object_eq_some_iff.mp ho)))
  | field ho hf hp =>
      exact .field (Parts.object_eq_some_iff.mpr
        (h.variant?_eq_some ht (Parts.object_eq_some_iff.mp ho))) hf hp
  | element ha hp =>
      exact .element (Parts.array_eq_some_iff.mpr
        (h.variant?_eq_some ht (Parts.array_eq_some_iff.mp ha))) hp

/-- Every object of a well-formed schema occurs in one of its parts. -/
theorem Schema.occursIn_of_mem {k : Conditions} : ∀ {t : Schema}, t.WellFormed k →
    p ∈ t.occurrences root here → t.OccursIn root here p
  | .null, _, h | .bool, _, h | .int, _, h | .float, _, h | .string _, _, h
  | .timestamp, _, h => by cases h
  | .array e empty, _, h => .element (a := ⟨e, empty⟩) rfl h
  | .optional t, ht, h => by
      cases occursIn_of_mem (t := t) ht.2 h with
      | own ho => exact .own ho
      | field ho hf hp => exact .field ho hf hp
      | element ha hp => exact .element ha hp
  | .object n m fs, _, h => by
      rcases List.mem_append.mp h with h | h
      · obtain ⟨f, hf, hp⟩ := mem_occurrencesOfFields_iff.mp h
        exact .field (o := ⟨n, m, fs⟩) rfl hf hp
      · rw [List.mem_singleton.mp h]
        exact .own (o := ⟨n, m, fs⟩) rfl
  | .union ts, ht, h => by
      obtain ⟨t, hmem, hp⟩ := mem_occurrencesOfAll_iff.mp h
      exact (k.isChoice ht.1).occursIn hmem
        (occursIn_of_mem (allWellFormed_iff.mp ht.2 t hmem) hp)

end

end SampleSchema
