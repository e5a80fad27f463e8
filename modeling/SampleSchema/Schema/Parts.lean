import SampleSchema.Schema

/-!
# The parts of a schema

Below its nullability a schema has at most one part in each of five buckets: truth values, numbers,
texts, arrays and objects. `Schema.parts` takes a schema apart and `Parts.assemble` puts parts
together again, as null, as the only part, or as a union of the parts in the order of the buckets.
When a hand-built union has several variants in one bucket, the last one counts.

* `Schema.element_lt`, `Schema.fields_lt`: what stands inside the parts is smaller than the schema.
-/

namespace SampleSchema

/-- The buckets of values that a schema keeps apart. -/
inductive Bucket where
  | bool | number | string | array | object
  deriving DecidableEq, Repr

/-- The part of a schema for numbers. -/
inductive NumberPart where
  | int | float
  deriving DecidableEq, Repr

/-- The part of a schema for texts. -/
inductive StringPart where
  | plain | numeric | timestamp
  deriving DecidableEq, Repr

/-- The part of a schema for arrays. -/
structure ArrayPart where
  element : Schema
  empty   : Bool

/-- The part of a schema for objects. -/
structure ObjectPart where
  name    : Option String
  samples : Int
  fields  : List (Field Schema)

/-- The parts of a schema. -/
structure Parts where
  bool   : Bool := false
  number : Option NumberPart := none
  string : Option StringPart := none
  array  : Option ArrayPart := none
  object : Option ObjectPart := none

/-- The schema of a part for numbers. -/
def NumberPart.toSchema : NumberPart → Schema
  | .int   => .int
  | .float => .float

/-- The schema of a part for texts. -/
def StringPart.toSchema : StringPart → Schema
  | .plain     => .string false
  | .numeric   => .string true
  | .timestamp => .timestamp

/-- The schema of a part for arrays. -/
def ArrayPart.toSchema (p : ArrayPart) : Schema := .array p.element p.empty

/-- The schema of a part for objects. -/
def ObjectPart.toSchema (p : ObjectPart) : Schema := .object p.name p.samples p.fields

namespace Parts

/-- The schemas of the parts, in the order of the buckets. -/
def toList (p : Parts) : List Schema :=
  (if p.bool then [.bool] else []) ++ (p.number.map NumberPart.toSchema).toList ++
    (p.string.map StringPart.toSchema).toList ++ (p.array.map ArrayPart.toSchema).toList ++
    (p.object.map ObjectPart.toSchema).toList

/-- The parts of `q`, and those of `p` in the buckets that `q` leaves empty. -/
def overriddenBy (p q : Parts) : Parts where
  bool   := p.bool || q.bool
  number := q.number.or p.number
  string := q.string.or p.string
  array  := q.array.or p.array
  object := q.object.or p.object

/-- A schema from its parts and whether it admits null. -/
def assemble (nullable : Bool) (p : Parts) : Schema :=
  match p.toList with
  | []  => .null
  | [t] => if nullable then .optional t else t
  | ts  => if nullable then .optional (.union ts) else .union ts

end Parts

mutual

/-- The parts of a schema. -/
def Schema.parts : Schema → Parts
  | .null             => {}
  | .bool             => { bool := true }
  | .int              => { number := some .int }
  | .float            => { number := some .float }
  | .string false     => { string := some .plain }
  | .string true      => { string := some .numeric }
  | .timestamp        => { string := some .timestamp }
  | .array e empty    => { array := some ⟨e, empty⟩ }
  | .object n k fs    => { object := some ⟨n, k, fs⟩ }
  | .optional t       => t.parts
  | .union ts         => partsOfAll ts

/-- The parts of the variants of a union. -/
def partsOfAll : List Schema → Parts
  | []      => {}
  | t :: ts => t.parts.overriddenBy (partsOfAll ts)

end

mutual

/-- The element of the part for arrays is smaller than the schema. -/
theorem Schema.element_lt {p : ArrayPart} : ∀ {t : Schema}, t.parts.array = some p →
    sizeOf p.element < sizeOf t
  | .null, h | .bool, h | .int, h | .float, h | .string true, h | .string false, h
  | .timestamp, h | .object .., h => by simp [Schema.parts] at h
  | .array e empty, h => by
      simp only [Schema.parts, Option.some.injEq] at h
      subst h; simp only [Schema.array.sizeOf_spec]; omega
  | .optional t, h => by
      have : sizeOf p.element < sizeOf t := Schema.element_lt (by simpa [Schema.parts] using h)
      simp only [Schema.optional.sizeOf_spec]; omega
  | .union ts, h => by
      have : sizeOf p.element < sizeOf ts := element_lt_of_all (by simpa [Schema.parts] using h)
      simp only [Schema.union.sizeOf_spec]; omega

/-- The element of the part for arrays of a union is smaller than the list of variants. -/
theorem element_lt_of_all {p : ArrayPart} : ∀ {ts : List Schema},
    (partsOfAll ts).array = some p → sizeOf p.element < sizeOf ts
  | [], h => by simp [partsOfAll] at h
  | t :: ts, h => by
      simp only [partsOfAll, Parts.overriddenBy, Option.or_eq_some_iff] at h
      rcases h with h | ⟨-, h⟩
      · have := element_lt_of_all h; simp only [List.cons.sizeOf_spec]; omega
      · have := Schema.element_lt h; simp only [List.cons.sizeOf_spec]; omega

end

mutual

/-- The fields of the part for objects are smaller than the schema. -/
theorem Schema.fields_lt {p : ObjectPart} : ∀ {t : Schema}, t.parts.object = some p →
    sizeOf p.fields < sizeOf t
  | .null, h | .bool, h | .int, h | .float, h | .string true, h | .string false, h
  | .timestamp, h | .array .., h => by simp [Schema.parts] at h
  | .object n k fs, h => by
      simp only [Schema.parts, Option.some.injEq] at h
      subst h; simp only [Schema.object.sizeOf_spec]; omega
  | .optional t, h => by
      have : sizeOf p.fields < sizeOf t := Schema.fields_lt (by simpa [Schema.parts] using h)
      simp only [Schema.optional.sizeOf_spec]; omega
  | .union ts, h => by
      have : sizeOf p.fields < sizeOf ts := fields_lt_of_all (by simpa [Schema.parts] using h)
      simp only [Schema.union.sizeOf_spec]; omega

/-- The fields of the part for objects of a union are smaller than the list of variants. -/
theorem fields_lt_of_all {p : ObjectPart} : ∀ {ts : List Schema},
    (partsOfAll ts).object = some p → sizeOf p.fields < sizeOf ts
  | [], h => by simp [partsOfAll] at h
  | t :: ts, h => by
      simp only [partsOfAll, Parts.overriddenBy, Option.or_eq_some_iff] at h
      rcases h with h | ⟨-, h⟩
      · have := fields_lt_of_all h; simp only [List.cons.sizeOf_spec]; omega
      · have := Schema.fields_lt h; simp only [List.cons.sizeOf_spec]; omega

end

end SampleSchema
