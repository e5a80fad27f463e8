import Mathlib
import SampleSchema.Proofs.NamingRuns

/-!
# The definitions of a named schema

The definitions of a named schema are the objects of the schema that it names, one for each
structure, in post-order: `NamedSchema.Defines` lists what that means, and `defines_of_named` says
that it holds whenever naming succeeds, of any schema and any name of its root.
-/

namespace SampleSchema
open Names

/-- In order, every object inside a definition is a definition of a smaller index. -/
theorem DefinedBeforeUse.exists_lt {ds : List Definition} (h : DefinedBeforeUse ds) {i : Nat}
    {d : Definition} (hd : ds[i]? = some d) {u : Schema} (hu : u ∈ objectsOfFields d.fields) :
    ∃ j e, j < i ∧ ds[j]? = some e ∧ e.toSchema = u := by
  induction h generalizing i d with
  | nil => cases hd
  | @snoc ds last _ hlast ih =>
      have keep : ∀ {j : Nat} {e : Definition}, ds[j]? = some e → (ds ++ [last])[j]? = some e :=
        fun {j e} hj => by
          rw [List.getElem?_append_left (List.getElem?_eq_some_iff.mp hj).1, hj]
      rcases Nat.lt_or_ge i ds.length with hi | hi
      · rw [List.getElem?_append_left hi] at hd
        obtain ⟨j, e, hj, he, hu⟩ := ih hd hu
        exact ⟨j, e, hj, keep he, hu⟩
      · rw [List.getElem?_append_right hi] at hd
        obtain rfl : last = d := by
          cases hk : i - ds.length with
          | zero => rw [hk] at hd; exact Option.some.inj hd
          | succ k => rw [hk] at hd; cases hd
        obtain ⟨e, he, hu⟩ := hlast u hu
        obtain ⟨j, hj, rfl⟩ := List.getElem_of_mem he
        exact ⟨j, _, Nat.lt_of_lt_of_le hj hi, keep (List.getElem?_eq_getElem hj), hu⟩

/-- After a walk over all objects of a schema the known structures are theirs, without repetitions. -/
theorem keys_eq_of_steps {rootName : String} {t : Schema} {n : Names}
    (h : Steps (t.occurrences (typeName rootName) .top) (reserved rootName t) n) :
    n.keys = (t.objects.map Schema.signature).eraseDups := by
  have hnil : (reserved rootName t).keys = [] := by rw [keys, defined_reserved, List.map_nil]
  have hall : ∀ l : List Signature, l.removeAll [] = l := fun l =>
    List.filter_eq_self.mpr fun _ _ => rfl
  rw [h.keys_eq, hnil, map_signature_occurrences, List.nil_append, hall]

/-- Where definitions come from a closed table, every object of what they name is one of them. -/
theorem Names.Closed.exists_of_namedBy {n : Names} (hn : n.Closed) {t u v : Schema}
    (h : t.NamedBy n.definitions u) (hv : v ∈ u.objects) :
    ∃ d ∈ n.definitions, d.toSchema = v := by
  obtain ⟨d, hd, hv⟩ := h.mem_objects hv
  exact hn.definedBeforeUse.exists_of_mem_objects hd hv

theorem Names.Sound.exists_of_namedBy {n : Names} (hn : n.Sound) {t u v : Schema}
    (h : t.NamedBy n.definitions u) (hv : v ∈ u.objects) :
    ∃ d ∈ n.definitions, d.toSchema = v :=
  hn.closed.exists_of_namedBy h hv

/-- Among definitions of distinct names the first of a name is the only one. -/
theorem find?_eq_some_of_mem {ds : List Definition} (hn : (ds.map Definition.name).Nodup)
    {d : Definition} (hd : d ∈ ds) : ds.find? (·.name = d.name) = some d := by
  cases h : ds.find? (·.name = d.name) with
  | none => exact absurd (decide_eq_true rfl) (List.find?_eq_none.mp h d hd)
  | some e =>
      have he : e.name = d.name := by simpa using List.find?_some h
      rw [List.inj_on_of_nodup_map hn (List.mem_of_find?_eq_some h) hd he]

/-- An object is named by any definition of its structure. -/
theorem Schema.namedBy_of_signature_eq {ds : List Definition} {d : Definition} (hd : d ∈ ds) :
    ∀ {a : Schema}, d.signature = a.signature → a.NamedBy ds d.toSchema
  | .object .., h => .object hd h
  | .null, h | .bool, h | .int, h | .float, h | .string _, h | .timestamp, h | .array .., h
  | .optional _, h | .union _, h => by cases h

/-! ### One definition for each structure -/

/-- How the definitions of a named schema stand for the objects of the schema that it names. -/
structure NamedSchema.Defines (s : NamedSchema) (t : Schema) : Prop where
  nodup_names : s.names.Nodup
  /-- There is one definition for each structure among the objects, in post-order. -/
  signatures_eq :
    s.definitions.map Definition.signature = (t.objects.map Schema.signature).eraseDups
  /-- The root is the schema itself with definitions for its outermost objects. -/
  namedBy : t.NamedBy s.definitions s.root
  /-- Objects share a definition when they are structurally equal, and else do not. -/
  shared_iff : ∀ a ∈ t.objects, ∀ b ∈ t.objects, ∃ d ∈ s.definitions, ∃ e ∈ s.definitions,
    a.NamedBy s.definitions d.toSchema ∧ b.NamedBy s.definitions e.toSchema ∧
      (d = e ↔ a.structurallyEqual b = true)
  mem_of_root : ∀ u ∈ s.root.objects, ∃ d ∈ s.definitions, d.toSchema = u
  /-- The objects inside a definition are definitions before it. -/
  before : ∀ (i : Nat) (d : Definition), s.definitions[i]? = some d →
    ∀ u ∈ objectsOfFields d.fields, ∃ (j : Nat) (e : Definition),
      j < i ∧ s.definitions[j]? = some e ∧ e.toSchema = u
  /-- Every definition is used somewhere below the root. -/
  reachable : ∀ d ∈ s.definitions, d.toSchema ∈ s.root.objects

/-- **The definitions of a named schema** are its objects in post-order, one for each structure: they
have distinct names, refer to earlier ones only, and are all used. -/
theorem defines_of_named {rootName : String} {t : Schema} {s : NamedSchema}
    (h : t.named rootName = .ok s) : s.Defines t := by
  obtain ⟨n, hs, hdefinitions, hnamed⟩ := Schema.steps_of_named h
  have hn : n.Sound := hs.sound (sound_reserved rootName t)
  obtain ⟨root, ds⟩ := s
  subst hdefinitions
  have hsignatures : n.definitions.map Definition.signature =
      (t.objects.map Schema.signature).eraseDups := by
    rw [hn.signatures_eq, keys_eq_of_steps hs]
  have hdefined : ∀ a ∈ t.objects, ∃ d ∈ n.definitions, d.signature = a.signature := fun a ha => by
    have hmem : a.signature ∈ n.definitions.map Definition.signature := by
      rw [hsignatures]
      exact List.mem_eraseDups.mpr (List.mem_map_of_mem ha)
    obtain ⟨d, hd, e⟩ := List.mem_map.mp hmem
    exact ⟨d, hd, e⟩
  refine ⟨hn.nodup_names, hsignatures, hnamed, fun a ha b hb => ?_,
    fun u hu => hn.exists_of_namedBy hnamed hu,
    fun i d hd u hu => hn.definedBeforeUse.exists_lt hd hu, fun d hd => ?_⟩
  · obtain ⟨d, hd, hda⟩ := hdefined a ha
    obtain ⟨e, he, heb⟩ := hdefined b hb
    refine ⟨d, hd, e, he, Schema.namedBy_of_signature_eq hd hda,
      Schema.namedBy_of_signature_eq he heb, ?_⟩
    rw [Schema.structurallyEqual, decide_eq_true_iff, ← hda, ← heb]
    exact ⟨congrArg Definition.signature, hn.eq_of_signature_eq hd he⟩
  · -- its structure is that of an object below the root, and that object is a definition
    have hmem : d.signature ∈ t.objects.map Schema.signature := by
      rw [← List.mem_eraseDups, ← hsignatures]
      exact List.mem_map_of_mem hd
    rw [← mem_objects_signature, ← hnamed.signature_eq, mem_objects_signature] at hmem
    obtain ⟨u, hu, e⟩ := List.mem_map.mp hmem
    obtain ⟨d', hd', rfl⟩ := hn.exists_of_namedBy hnamed hu
    rwa [← hn.eq_of_signature_eq hd' hd e]

/-- Objects in an array, and an object inside which one of the same structure stands, with its fields
the other way round. -/
def sharedObjects : Schema :=
  .union [.array (.object none 1 [⟨"a", .int, false, 1, 1⟩, ⟨"b", .null, true, 0, 1⟩]) false,
    .object none 3 [⟨"u", .object none 2 [⟨"b", .null, true, 0, 2⟩, ⟨"a", .int, false, 2, 2⟩],
      false, 3, 3⟩]]

/-- The definition that the two inner objects share. -/
def sharedItem : Definition := ⟨"RootItem", 1, [⟨"a", .int, false, 1, 1⟩, ⟨"b", .null, true, 0, 1⟩]⟩

/-- The definition of the outer object. -/
def sharedRoot : Definition := ⟨"Root", 3, [⟨"u", sharedItem.toSchema, false, 3, 3⟩]⟩

theorem named_sharedObjects : sharedObjects.named "Root" = .ok
    ⟨.union [.array sharedItem.toSchema false, sharedRoot.toSchema], [sharedItem, sharedRoot]⟩ := by
  cbv

/-- Two of the three objects share a definition. -/
theorem defines_of_sharedObjects :
    (NamedSchema.mk (.union [.array sharedItem.toSchema false, sharedRoot.toSchema])
      [sharedItem, sharedRoot]).Defines sharedObjects :=
  defines_of_named named_sharedObjects

end SampleSchema
