import SampleSchema.Proofs.Definitions
import SampleSchema.Proofs.Invariant

/-!
# The name of the root

The root name is kept for the object part of the schema, which is the schema itself or its variant
for objects.  No other structure ever gets the name.  The object at the root gets it too, unless an
object of its structure stands in the array next to it: that one is met first, and its name is the
name of both.

* `Schema.exists_definesRoot`: a definition stands for the object at the root of a named schema.
* `root_name_of_run`: so it is in the schema of every run; `root_unnamed_of_twice` is a run in which
  no definition bears the root name.
-/

namespace SampleSchema
open Names

/-! ### The object at the root -/

mutual

/-- The object part of a schema is one of its objects. -/
theorem Schema.toSchema_mem_objects {o : ObjectPart} : ∀ (t : Schema), t.parts.object = some o →
    o.toSchema ∈ t.objects
  | .null, h | .bool, h | .int, h | .float, h | .string true, h | .string false, h
  | .timestamp, h | .array .., h => by cases h
  | .object n k fs, h => by
      cases h
      exact List.mem_append_right _ (List.mem_singleton_self _)
  | .optional t, h => Schema.toSchema_mem_objects t h
  | .union ts, h => toSchema_mem_objectsOfAll ts h

/-- The object part of a union is one of its objects. -/
theorem toSchema_mem_objectsOfAll {o : ObjectPart} : ∀ (ts : List Schema),
    (partsOfAll ts).object = some o → o.toSchema ∈ objectsOfAll ts
  | [], h => by cases h
  | t :: ts, h => by
      rcases Option.or_eq_some_iff.mp h with h | ⟨-, h⟩
      · exact List.mem_append_right _ (toSchema_mem_objectsOfAll ts h)
      · exact List.mem_append_left _ (Schema.toSchema_mem_objects t h)

end

/-- The objects inside the array part of a schema. -/
def Schema.arrayObjects (t : Schema) : List Schema :=
  match t.parts.array with
  | some a => a.element.objects
  | none => []

/-- The first object among the variants of a union is its object part. -/
theorem IsChoice.find?_isObject {ts : List Schema} (h : IsChoice ts) :
    ts.find? Schema.isObject = (partsOfAll ts).object.map ObjectPart.toSchema := by
  cases hf : ts.find? Schema.isObject with
  | some u =>
      have hobject : u.isObject = true := List.find?_some hf
      have hbucket : u.kind.bucket? = some .object := by
        cases u with
        | object _ _ _ => rfl
        | _ => cases hobject
      have hmem := (h.mem_toList_iff u).mpr (List.mem_of_find?_eq_some hf)
      exact ((Parts.mem_toList_iff_of_bucket hbucket).mp hmem).symm
  | none =>
      cases ho : (partsOfAll ts).object with
      | none => rfl
      | some o =>
          have hmem : o.toSchema ∈ ts := (h.mem_toList_iff _).mp
            (Parts.mem_toList_iff_variant?.mpr ⟨.object, Parts.object_eq_some_iff.mp ho⟩)
          exact absurd rfl (List.find?_eq_none.mp hf _ hmem)

/-- The root name is kept for the object part. -/
theorem Schema.WellFormed.rootObject?_eq {object : ObjectPart → Prop}
    {of_merge : ∀ {p q}, object p → object q → object (p.merge q)} {t : Schema}
    (h : t.WellFormed (.canonical object of_merge)) :
    t.rootObject? = t.parts.object.map ObjectPart.toSchema := by
  have hunion : ∀ ts, (Schema.union ts).WellFormed (.canonical object of_merge) →
      ts.find? Schema.isObject = (partsOfAll ts).object.map ObjectPart.toSchema := fun ts hts =>
    IsChoice.find?_isObject (AreVariants.isChoice hts.1)
  cases t with
  | union ts => exact hunion ts h
  | optional t =>
      cases t with
      | union ts => exact hunion ts h.2
      | null | optional _ => cases h.1
      | string numeric => cases numeric <;> rfl
      | _ => rfl
  | string numeric => cases numeric <;> rfl
  | _ => rfl

theorem rel_or {α β : Type} {R : α → β → Prop} {a b : Option α} {a' b' : Option β}
    (ha : Option.Rel R a a') (hb : Option.Rel R b b') : Option.Rel R (a.or b) (a'.or b') := by
  cases ha with
  | none => exact hb
  | some h => exact .some h

/-- Whether a definition of its structure stands in the place of an object. -/
def DefinedAs (ds : List Definition) (o p : ObjectPart) : Prop :=
  ∃ d ∈ ds, d.signature = o.toSchema.signature ∧ p.toSchema = d.toSchema

section
variable {ds : List Definition}

mutual

/-- Naming a schema puts a definition in the place of its object part. -/
theorem Schema.NamedBy.object_part : ∀ {t u : Schema}, t.NamedBy ds u →
    Option.Rel (DefinedAs ds) t.parts.object u.parts.object
  | t, _, .same h => by
      cases ho : t.parts.object with
      | none => exact .none
      | some o => exact absurd (Schema.toSchema_mem_objects t ho) (h ▸ List.not_mem_nil)
  | _, _, .array _ => .none
  | _, _, .object hd h => .some ⟨_, hd, h, rfl⟩
  | _, _, .optional h => h.object_part
  | _, _, .union h => h.object_part

theorem AllNamedBy.object_part : ∀ {ts us : List Schema}, AllNamedBy ds ts us →
    Option.Rel (DefinedAs ds) (partsOfAll ts).object (partsOfAll us).object
  | _, _, .nil => .none
  | _, _, .cons h hs => rel_or hs.object_part h.object_part

end

end

/-! ### Who gets the root name -/

section
variable {object : ObjectPart → Prop}
  {of_merge : ∀ {p q}, object p → object q → object (p.merge q)}
  {rootName : String} {t : Schema} {o : ObjectPart} {n : Names}

/-- The structure of the object at the root owns the root name, before and after naming. -/
theorem owner?_root_of_steps (ht : t.WellFormed (.canonical object of_merge))
    (ho : t.parts.object = some o) {ps : List Occurrence} (h : Steps ps (reserved rootName t) n) :
    n.owner? (typeName rootName) = some o.toSchema.signature := by
  refine h.owner?_mono ?_
  rw [reserved, ht.rootObject?_eq, ho]
  exact owner?_own _ _ _

/-- The only name that is given away beforehand is the root name. -/
theorem eq_root_of_reserved {name : String} {k : Signature}
    (h : (reserved rootName t).owner? name = some k) : name = typeName rootName := by
  have hnone : (start rootName).owner? name = none := rfl
  rw [reserved] at h
  split at h
  · by_cases e : name = typeName rootName
    · exact e
    · rw [owner?_own_of_ne _ _ e, hnone] at h
      cases h
  · rw [hnone] at h
    cases h

/-- An object with the structure of the object at the root stands in the array, or is that one. -/
theorem words_eq_nil_of_signature_eq (ht : t.WellFormed (.canonical object of_merge))
    (ho : t.parts.object = some o)
    (harray : ∀ u ∈ t.arrayObjects, u.signature ≠ o.toSchema.signature)
    {root : String} {p : Occurrence} (hp : p ∈ t.occurrences root .top)
    (h : p.signature = o.toSchema.signature) : p.words = [] := by
  cases Schema.occursIn_of_mem ht hp with
  | own _ => rfl
  | @field o' f _ ho' hf hp =>
      cases ho.symm.trans ho'
      have hmem : p.object ∈ objectsOfFields o.fields := mem_objectsOfFields_iff.mpr
        ⟨f, hf, Schema.map_object_occurrences root _ f.type ▸ List.mem_map_of_mem hp⟩
      exact absurd h (signature_ne_of_inside hmem)
  | @element a _ ha hp =>
      have hmem : p.object ∈ t.arrayObjects := by
        rw [Schema.arrayObjects, ha]
        show p.object ∈ a.element.objects
        rw [← Schema.map_object_occurrences root]
        exact List.mem_map_of_mem hp
      exact absurd h (harray _ hmem)

/-- A name that the structure of the object at the root owns is the root name, if no object in the
array has that structure. -/
theorem eq_root_of_owner? (ht : t.WellFormed (.canonical object of_merge))
    (ho : t.parts.object = some o)
    (harray : ∀ u ∈ t.arrayObjects, u.signature ≠ o.toSchema.signature)
    (h : Steps (t.occurrences (typeName rootName) .top) (reserved rootName t) n) {name : String}
    (hname : n.owner? name = some o.toSchema.signature) : name = typeName rootName := by
  rcases h.owner?_cases hname with hreserved | ⟨p, hp, hsig, hc⟩
  · exact eq_root_of_reserved hreserved
  · rw [root_reserved, words_eq_nil_of_signature_eq ht ho harray hp hsig] at hc
    exact List.mem_singleton.mp hc

end

/-- How a definition stands for the object at the root, in a schema with the given name for its root
that was merged from another one. -/
structure NamedSchema.DefinesRoot (s : NamedSchema) (root : String) (t : Schema) (o : ObjectPart)
    (d : Definition) : Prop where
  mem          : d ∈ s.definitions
  signature_eq : d.signature = o.toSchema.signature
  object_eq    : s.root.parts.object = some ⟨some d.name, d.samples, d.fields⟩
  /-- No other object bears the root name. -/
  eq_of_name   : ∀ samples fields, Schema.object (some root) samples fields ∈ s.root.objects →
    .object (some root) samples fields = d.toSchema
  /-- The definition bears the root name, unless its structure is met before. -/
  name_eq      : (∀ u ∈ t.arrayObjects, u.signature ≠ o.toSchema.signature) → d.name = root

theorem Schema.exists_definesRoot {object : ObjectPart → Prop}
    {of_merge : ∀ {p q}, object p → object q → object (p.merge q)} {t : Schema}
    (ht : t.WellFormed (.canonical object of_merge)) {rootName : String} {s : NamedSchema}
    (h : t.named rootName = .ok s) {o : ObjectPart} (ho : t.parts.object = some o) :
    ∃ d, s.DefinesRoot (typeName rootName) t o d := by
  obtain ⟨n, hs, hdefinitions, hnamed⟩ := Schema.steps_of_named h
  have hn : n.Sound := hs.sound (sound_reserved _ _)
  rw [hdefinitions] at hnamed
  have hpart := hnamed.object_part
  rw [ho] at hpart
  generalize hroot : s.root.parts.object = part at hpart
  cases hpart with
  | @some _ p hd =>
      obtain ⟨d, hd, hsig, hp⟩ := hd
      refine ⟨d, hdefinitions ▸ hd, hsig, ?_, fun samples fields hu => ?_, fun harray => ?_⟩
      · obtain ⟨_, _, _⟩ := p
        cases hp
        exact hroot
      · -- the object is a definition, so its structure owns the name
        obtain ⟨e, he, hue⟩ := hn.exists_of_namedBy hnamed hu
        have hname : e.name = typeName rootName := Option.some.inj (Schema.object.inj hue).1
        have howner := hn.owner?_eq e he
        rw [hname, owner?_root_of_steps ht ho hs] at howner
        rw [← hue, hn.eq_of_signature_eq he hd (by rw [hsig, Option.some.inj howner])]
      · refine eq_root_of_owner? ht ho harray hs ?_
        rw [hn.owner?_eq d hd, hsig]

/-- The name of the root in a run. -/
def Settings.rootNameFor (s : Settings) (r : RunRequest) : String :=
  typeName (givenOr r.rootName s.rootTypeName)

/-- **The root name belongs to the root.**  In the schema of a run that merges its samples into an
object, or into a union with one, a definition of the structure of that object stands at the root, and
no other object bears the root name.  The definition bears it if no object in the array of the union
has the same structure. -/
theorem root_name_of_run {s : Settings} {r : RunRequest} {samples : List Sample} {i : Inferred}
    (hsamples : ∀ v ∈ samples, v.hasDistinctNames = true) (h : s.run r samples = .ok i)
    {o : ObjectPart} (ho : i.merged.parts.object = some o) :
    ∃ d, i.schema.DefinesRoot (s.rootNameFor r) i.merged o d := by
  obtain ⟨options, hoptions⟩ := Settings.exists_optionsFor h
  have ht : i.merged.WellFormed .observed := by
    rw [Settings.merged_of_run hoptions h]
    exact options.wellFormed_inferMerged _ hsamples
  exact Schema.exists_definesRoot ht (Settings.named_of_run hoptions h) ho

/-- An object with another one in a field that spells the root name. -/
def besidePart : ObjectPart where
  name    := none
  samples := 1
  fields  := [⟨"root", .object none 1 [⟨"y", .bool, false, 1, 1⟩], false, 1, 1⟩]

/-- The definitions for an array of objects and for the object next to it. -/
def besideDefinitions : List Definition :=
  [⟨"RootItem", 1, [⟨"x", .int, false, 1, 1⟩]⟩, ⟨"RootRoot", 1, [⟨"y", .bool, false, 1, 1⟩]⟩,
    ⟨"Root", 1, [⟨"root", .object (some "RootRoot") 1 [⟨"y", .bool, false, 1, 1⟩], false, 1, 1⟩]⟩]

/-- What a run gives of an array with an object, and an object of another structure. -/
def beside : Inferred where
  schema      :=
    ⟨.union [.array (.object (some "RootItem") 1 [⟨"x", .int, false, 1, 1⟩]) false,
        .object (some "Root") 1 [⟨"root", .object (some "RootRoot") 1
          [⟨"y", .bool, false, 1, 1⟩], false, 1, 1⟩]], besideDefinitions⟩
  merged      :=
    .union [.array (.object none 1 [⟨"x", .int, false, 1, 1⟩]) false, besidePart.toSchema]
  conflicts   := [⟨"", [.array, .object]⟩]
  sampleCount := 2

theorem run_beside : ({} : Settings).run {}
    [.array [.object [("x", .int 1)]], .object [("root", .object [("y", .bool true)])]] =
      .ok beside := by
  cbv

theorem root_name_of_beside : ∃ d ∈ besideDefinitions,
    d.signature = besidePart.toSchema.signature ∧ d.name = "Root" := by
  obtain ⟨d, hd⟩ := root_name_of_run (by decide) run_beside rfl
  refine ⟨d, hd.mem, hd.signature_eq, (hd.name_eq fun u hu => ?_).trans (by decide)⟩
  obtain rfl := List.mem_singleton.mp hu
  simp [besidePart, ObjectPart.toSchema, Schema.signature, fieldSignatures]

/-- The object at the root does not bear the root name where an object of its structure stands in the
array next to it. -/
theorem root_unnamed_of_twice : ∃ i o, ({} : Settings).run {}
      [.array [.object [("a", .int 1)]], .object [("a", .int 1)]] = .ok i ∧
    i.merged.parts.object = some o ∧
      ∀ d ∈ i.schema.definitions, d.name ≠ ({} : Settings).rootNameFor {} :=
  ⟨_, _, run_twice, rfl, by decide⟩

end SampleSchema
