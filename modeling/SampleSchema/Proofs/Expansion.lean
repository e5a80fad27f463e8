import SampleSchema.Proofs.Definitions
import SampleSchema.Proofs.Invariant

/-!
# Reports expanded

In a report an object is the name of a definition.  `Report.expand` puts the definitions back in the
place of their names, those inside definitions included, as deep as it is allowed to.  The report of
a named schema expands to that schema, whose structure is that of the schema before it was named:
a report loses nothing (`report_lossless`).
-/

namespace SampleSchema

/-! ### Expanding a report -/

/-- The schema of a kind that a description gives without parts. -/
def Kind.leaf? : Kind → Option Schema
  | .null      => some .null
  | .bool      => some .bool
  | .int       => some .int
  | .float     => some .float
  | .timestamp => some .timestamp
  | .string | .array | .object | .optional | .union => none

section
variable (resolve : String → Option Schema)

mutual

/-- The schema that is described, given the schemas of the names in it. -/
def Descriptor.expand : Descriptor → Option Schema
  | .leaf kind      => kind.leaf?
  | .string numeric => some (.string numeric)
  | .array e empty  => e.expand.map (.array · empty)
  | .object name    => name.bind resolve
  | .optional d     => d.expand.map .optional
  | .union ds       => (expandAll ds).map .union

/-- The schemas that are described one by one. -/
def expandAll : List Descriptor → Option (List Schema)
  | [] => some []
  | d :: ds => do
    let t ← d.expand
    return t :: (← expandAll ds)

end

/-- The fields whose types are described. -/
def expandFields : List (Field Descriptor) → Option (List (Field Schema))
  | [] => some []
  | f :: fs => do
    let t ← f.type.expand resolve
    return ⟨f.name, t, f.optional, f.observed, f.total⟩ :: (← expandFields fs)

end

namespace Report

/-- The schema of the definition of a name, in which names may stand for definitions to the given
depth. -/
def resolve (r : Report) : Nat → String → Option Schema
  | 0, _ => none
  | depth + 1, name => do
    let d ← r.definitions.find? (·.name = name)
    return .object (some d.name) d.samples (← expandFields (r.resolve depth) d.fields)

/-- The schema that a report describes, in which names may stand for definitions to the given
depth. -/
def expand (r : Report) (depth : Nat) : Option Schema := r.root.expand (r.resolve depth)

/-- Whether a report expands to a schema, without more depth than it has definitions. -/
def ExpandsTo (r : Report) (t : Schema) : Prop :=
  ∀ depth, r.definitions.length ≤ depth → r.expand depth = some t

end Report

/-! ### Descriptions of named schemas -/

section
variable {resolve : String → Option Schema}

/-- Whether the names of objects stand for the objects. -/
def Resolves (resolve : String → Option Schema) (objects : List Schema) : Prop :=
  ∀ name samples fields, Schema.object name samples fields ∈ objects →
    name.bind resolve = some (.object name samples fields)

theorem resolves_append {us vs : List Schema} :
    Resolves resolve (us ++ vs) ↔ Resolves resolve us ∧ Resolves resolve vs := by
  simp only [Resolves, List.mem_append, or_imp, forall_and]

mutual

/-- A description expands to what it describes, where the names in it stand for its objects. -/
theorem expand_descriptor : ∀ {t : Schema}, Resolves resolve t.objects →
    t.descriptor.expand resolve = some t
  | .null, _ | .bool, _ | .int, _ | .float, _ | .string _, _ | .timestamp, _ => rfl
  | .array e empty, h => by
      rw [Schema.descriptor, Descriptor.expand, expand_descriptor (t := e) h]
      rfl
  | .optional t, h => by
      rw [Schema.descriptor, Descriptor.expand, expand_descriptor (t := t) h]
      rfl
  | .union ts, h => by
      rw [Schema.descriptor, Descriptor.expand, expandAll_descriptors (by exact h)]
      rfl
  | .object name samples fields, h =>
      h name samples fields (List.mem_append_right _ (List.mem_singleton_self _))

theorem expandAll_descriptors : ∀ {ts : List Schema}, Resolves resolve (objectsOfAll ts) →
    expandAll resolve (descriptors ts) = some ts
  | [], _ => rfl
  | t :: ts, h => by
      obtain ⟨ht, hts⟩ := resolves_append.mp h
      rw [descriptors, expandAll, expand_descriptor ht, expandAll_descriptors hts]
      rfl

end

theorem expandFields_described : ∀ {fs : List (Field Schema)},
    Resolves resolve (objectsOfFields fs) → expandFields resolve (fs.map Field.described) = some fs
  | [], _ => rfl
  | f :: fs, h => by
      obtain ⟨hf, hfs⟩ := resolves_append.mp h
      rw [List.map_cons, expandFields, Field.described, expand_descriptor hf,
        expandFields_described hfs]
      rfl

end

/-! ### Reports of named schemas -/

section
variable {r : Report} {ds : List Definition}

/-- A name stands for the definition of that name to the depth of its place among the definitions. -/
theorem resolve_name (hr : r.definitions = ds.map Definition.report)
    (hn : (ds.map Definition.name).Nodup) (hb : DefinedBeforeUse ds) :
    ∀ {depth i : Nat} {d : Definition}, ds[i]? = some d → i < depth →
      r.resolve depth d.name = some d.toSchema
  | 0, _, _, _, h => absurd h (Nat.not_lt_zero _)
  | depth + 1, i, d, hd, hi => by
      have hfind : r.definitions.find? (·.name = d.name) = some d.report := by
        rw [hr, List.find?_map]
        exact congrArg (Option.map Definition.report)
          (find?_eq_some_of_mem hn (List.mem_of_getElem? hd))
      have hfields : Resolves (r.resolve depth) (objectsOfFields d.fields) := by
        intro name samples fields hu
        obtain ⟨j, e, hj, he, hu⟩ := hb.exists_lt hd hu
        cases hu
        exact resolve_name hr hn hb he (Nat.lt_of_lt_of_le hj (Nat.le_of_lt_succ hi))
      rw [Report.resolve, hfind]
      show (do return Schema.object (some d.name) d.samples (← expandFields (r.resolve depth)
        (d.fields.map Field.described)) : Option Schema) = _
      rw [expandFields_described hfields]
      rfl

/-- A report of which all objects are definitions expands to what it reports. -/
theorem expandsTo_of_namedBy {t u : Schema} {n : Names} (hn : n.Sound)
    (h : t.NamedBy n.definitions u) (hroot : r.root = u.descriptor)
    (hr : r.definitions = n.definitions.map Definition.report) : r.ExpandsTo u := by
  intro depth hdepth
  rw [hr, List.length_map] at hdepth
  rw [Report.expand, hroot]
  refine expand_descriptor fun name samples fields hu => ?_
  obtain ⟨d, hd, hu⟩ := hn.exists_of_namedBy h hu
  cases hu
  obtain ⟨i, hi, rfl⟩ := List.getElem_of_mem hd
  exact resolve_name hr hn.nodup_names hn.definedBeforeUse (List.getElem?_eq_getElem hi)
    (Nat.lt_of_lt_of_le hi hdepth)

end

/-- The report of a named schema expands to a schema of the structure that was named. -/
theorem exists_expandsTo_of_named {rootName : String} {t : Schema} {i : Inferred}
    (h : t.named rootName = .ok i.schema) (title : String) (runId : Option Nat) :
    ∃ u, (i.report title runId).ExpandsTo u ∧ u.signature = t.signature := by
  obtain ⟨n, hs, hdefinitions, hnamed⟩ := Schema.steps_of_named h
  have hn : n.Sound := hs.sound (Names.sound_reserved rootName t)
  refine ⟨i.schema.root, expandsTo_of_namedBy hn (hdefinitions ▸ hnamed) rfl ?_,
    hnamed.signature_eq⟩
  rw [← hdefinitions]
  rfl

/-- **A report loses nothing.**  Whenever a schema can be named, the report on it expands to a schema
of the same structure; in particular the report of a run has the structure of what the run merged. -/
theorem report_lossless :
    (∀ (rootName title : String) (runId : Option Nat) (t : Schema) (i : Inferred),
      t.named rootName = .ok i.schema →
        ∃ u, (i.report title runId).ExpandsTo u ∧ u.signature = t.signature) ∧
    ∀ (s : Settings) (r : RunRequest) (samples : List Sample) (i : Inferred) (title : String)
      (runId : Option Nat), s.run r samples = .ok i →
        ∃ u, (i.report title runId).ExpandsTo u ∧ u.signature = i.merged.signature := by
  refine ⟨fun rootName title runId t i h => exists_expandsTo_of_named h title runId,
    fun s r samples i title runId h => ?_⟩
  obtain ⟨o, ho⟩ := Settings.exists_optionsFor h
  exact exists_expandsTo_of_named (Settings.named_of_run ho h) title runId

/-- The report on the objects of which two share a definition, and that of a run whose objects all do,
stored as the seventh. -/
theorem report_lossless_of_shared :
    (∃ u, ((Inferred.mk ⟨.union [.array sharedItem.toSchema false, sharedRoot.toSchema],
        [sharedItem, sharedRoot]⟩ sharedObjects [] 4).report "Root" (some 7)).ExpandsTo u ∧
      u.signature = sharedObjects.signature) ∧
    ∃ u, (twice.report "Root" none).ExpandsTo u ∧ u.signature = twice.merged.signature :=
  ⟨report_lossless.1 _ _ _ _ _ named_sharedObjects, report_lossless.2 _ _ _ _ _ _ run_twice⟩

end SampleSchema
