import SampleSchema.Schema.Parts

/-!
# Merging schemas

The merge of two schemas describes the values that either of them describes. The parts of one bucket
are merged with each other: integers widen to floats, timestamps and texts that look like numbers to
plain texts, the elements of arrays and the fields of objects are merged in turn, and the schema of
empty arrays gives way to any other. The fields of an object stand in the order in which they were
first seen, and a field that was seen in fewer objects than there are is optional and admits null.

* `merge_eq`: merging is merging the parts and assembling the result.
* `mergeAll` folds a list from the left, `mergeTree` in adjacent pairs, level by level.
-/

namespace SampleSchema

/-- The number part for the numbers of two parts. -/
def NumberPart.merge : NumberPart → NumberPart → NumberPart
  | .int, .int => .int
  | _, _       => .float

/-- The text part for the texts of two parts. -/
def StringPart.merge : StringPart → StringPart → StringPart
  | .numeric, .numeric     => .numeric
  | .timestamp, .timestamp => .timestamp
  | _, _                   => .plain

/-- The field with the given counts, which is optional when it was seen less often than it could. -/
def Field.ofCounts (name : String) (type : Schema) (observed total : Int) : Field Schema :=
  if observed < total then ⟨name, type.makeOptional, true, observed, total⟩
  else ⟨name, type, false, observed, total⟩

/-- The last field of a name. -/
def lastField? (fields : List (Field Schema)) (name : String) : Option (Field Schema) :=
  fields.reverse.find? (·.name = name)

/-- The fields of `others` whose names do not occur among `fields`, counted among `total` objects. -/
def newFields (total : Int) (fields others : List (Field Schema)) : List (Field Schema) :=
  (others.filter fun g => !(fields.map Field.name).contains g.name).map fun g =>
    Field.ofCounts g.name g.type g.observed total

mutual

/-- The schema for the values of two schemas. -/
def Schema.merge (a b : Schema) : Schema :=
  Parts.assemble (a.isNullable || b.isNullable)
    { bool := a.parts.bool || b.parts.bool
      number := Option.merge NumberPart.merge a.parts.number b.parts.number
      string := Option.merge StringPart.merge a.parts.string b.parts.string
      array :=
        match _h : a.parts.array, b.parts.array with
        | some p, some q =>
          some (if p.empty then q else if q.empty then p else ⟨p.element.merge q.element, false⟩)
        | p, none => p
        | none, q => q
      object :=
        match _h : a.parts.object, b.parts.object with
        | some p, some q =>
          let total := p.samples + q.samples
          some ⟨none, total, mergeFields total q.fields p.fields ++ newFields total p.fields q.fields⟩
        | p, none => p
        | none, q => q }
termination_by sizeOf a
decreasing_by
  · exact Schema.element_lt _h
  · exact Schema.fields_lt _h

/-- The given fields, each merged with the last field of its name among `others`. -/
def mergeFields (total : Int) (others : List (Field Schema)) :
    List (Field Schema) → List (Field Schema)
  | [] => []
  | f :: fs =>
    (match lastField? others f.name with
      | some g => Field.ofCounts f.name (f.type.merge g.type) (f.observed + g.observed) total
      | none => Field.ofCounts f.name f.type f.observed total) :: mergeFields total others fs
termination_by fs => sizeOf fs
decreasing_by
  · cases f; simp only [List.cons.sizeOf_spec, Field.mk.sizeOf_spec]; omega
  · simp only [List.cons.sizeOf_spec]; omega

end

/-- The array part for the arrays of two parts. -/
def ArrayPart.merge (p q : ArrayPart) : ArrayPart :=
  if p.empty then q else if q.empty then p else ⟨p.element.merge q.element, false⟩

/-- The object part for the objects of two parts. -/
def ObjectPart.merge (p q : ObjectPart) : ObjectPart where
  name    := none
  samples := p.samples + q.samples
  fields  := mergeFields (p.samples + q.samples) q.fields p.fields ++
    newFields (p.samples + q.samples) p.fields q.fields

/-- The parts for the values of two lots of parts. -/
def Parts.merge (p q : Parts) : Parts where
  bool   := p.bool || q.bool
  number := Option.merge NumberPart.merge p.number q.number
  string := Option.merge StringPart.merge p.string q.string
  array  := Option.merge ArrayPart.merge p.array q.array
  object := Option.merge ObjectPart.merge p.object q.object

/-- Merging is merging the parts and assembling the result. -/
theorem merge_eq (a b : Schema) :
    a.merge b = Parts.assemble (a.isNullable || b.isNullable) (a.parts.merge b.parts) := by
  rw [Schema.merge, Parts.merge]
  congr 2
  · split
    · simp_all [Option.merge, ArrayPart.merge]
    · cases a.parts.array <;> simp_all [Option.merge]
    · cases b.parts.array <;> simp_all [Option.merge]
  · split
    · simp_all [Option.merge, ObjectPart.merge]
    · cases a.parts.object <;> simp_all [Option.merge]
    · cases b.parts.object <;> simp_all [Option.merge]

/-- The merge of schemas from left to right; no schemas have no merge. -/
def mergeAll : List Schema → Option Schema
  | []      => none
  | t :: ts => some (ts.foldl Schema.merge t)

/-- The merges of adjacent pairs; an odd schema at the end stays as it is. -/
def mergePairs : List Schema → List Schema
  | a :: b :: ts => a.merge b :: mergePairs ts
  | ts           => ts

/-- Merging in pairs does not lengthen a list. -/
theorem length_mergePairs_le : ∀ ts : List Schema, (mergePairs ts).length ≤ ts.length
  | [] | [_] => Nat.le_refl _
  | _ :: _ :: ts => by
      have := length_mergePairs_le ts
      simp only [mergePairs, List.length_cons]; omega

/-- The merge of schemas in adjacent pairs, level by level. -/
def mergeTree : List Schema → Option Schema
  | []           => none
  | [t]          => some t
  | a :: b :: ts => mergeTree (a.merge b :: mergePairs ts)
termination_by ts => ts.length
decreasing_by
  have := length_mergePairs_le ts
  simp only [List.length_cons]; omega

end SampleSchema
