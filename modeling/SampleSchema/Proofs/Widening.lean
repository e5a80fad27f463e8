import SampleSchema.Proofs.StructuralEquality
import SampleSchema.Proofs.WellFormed

/-!
# The widening order

`a ≤ c` says that `c` is at least as wide as `a`, without mention of merging: `c` admits null if `a`
does, and every component of `a` has a component of `c` in its bucket that is at least as wide.
Integers are below floats, timestamps and numeric texts below plain texts, and the schema of empty
arrays below that of any arrays.  Objects are below others that have all of their fields, with wider
types and optional where the fields are, and that have more fields only if these are optional.

On well-formed schemas this is an order bucket by bucket (`Schema.WellFormed.le_iff`).
-/

namespace SampleSchema

/-! ### The order -/

mutual

/-- The types in a schema that are neither null nor optional nor unions. -/
def Schema.components : Schema → List Schema
  | .null       => []
  | .optional t => t.components
  | .union ts   => componentsOfAll ts
  | t           => [t]

/-- The parts that the schemas of a union contribute, one after the other. -/
def componentsOfAll : List Schema → List Schema
  | []      => []
  | t :: ts => t.components ++ componentsOfAll ts

end

mutual

/-- Whether `c` is at least as wide as a schema. -/
def Schema.Le : Schema → Schema → Prop
  | .null, c          => c.isNullable = true
  | .bool, c          => .bool ∈ c.components
  | .int, c           => .int ∈ c.components ∨ .float ∈ c.components
  | .float, c         => .float ∈ c.components
  | .string false, c  => .string false ∈ c.components
  | .string true, c   => .string true ∈ c.components ∨ .string false ∈ c.components
  | .timestamp, c     => .timestamp ∈ c.components ∨ .string false ∈ c.components
  | .array _ true, c  => ∃ e m, .array e m ∈ c.components
  | .array e false, c => ∃ f, .array f false ∈ c.components ∧ e.Le f
  | .object _ _ fs, c =>
    ∃ n k gs, .object n k gs ∈ c.components ∧ fieldsLe fs gs ∧
      ∀ g ∈ gs, g.name ∉ fs.map Field.name → g.optional = true
  | .optional t, c    => c.isNullable = true ∧ t.Le c
  | .union ts, c      => allLe ts c

/-- Whether each field has a field of its name among `gs` that is at least as wide, and optional if
it is. -/
def fieldsLe : List (Field Schema) → List (Field Schema) → Prop
  | [], _ => True
  | ⟨name, type, optional, _, _⟩ :: fs, gs =>
    (∃ g ∈ gs, g.name = name ∧ type.Le g.type ∧ (optional = true → g.optional = true)) ∧
      fieldsLe fs gs

/-- Whether `c` is at least as wide as each of some schemas. -/
def allLe : List Schema → Schema → Prop
  | [], _      => True
  | t :: ts, c => t.Le c ∧ allLe ts c

end

instance : LE Schema := ⟨Schema.Le⟩

/-- The order on fields, field by field. -/
theorem fieldsLe_iff {gs : List (Field Schema)} : ∀ {fs : List (Field Schema)},
    fieldsLe fs gs ↔ ∀ f ∈ fs, ∃ g ∈ gs, g.name = f.name ∧ f.type ≤ g.type ∧
      (f.optional = true → g.optional = true)
  | [] => by simp [fieldsLe]
  | f :: fs => by
      rw [fieldsLe, fieldsLe_iff, List.forall_mem_cons]
      rfl

/-- The order on several schemas, one by one. -/
theorem allLe_iff {c : Schema} : ∀ {ts : List Schema}, allLe ts c ↔ ∀ t ∈ ts, t ≤ c
  | [] => by simp [allLe]
  | t :: ts => by
      rw [allLe, allLe_iff, List.forall_mem_cons]
      rfl

/-! ### The order on parts -/

/-- Whether there is a value on the right that stands in a relation to the one on the left, if there
is one on the left. -/
def Below {α : Type} (R : α → α → Prop) (x y : Option α) : Prop :=
  ∀ a, x = some a → ∃ b, y = some b ∧ R a b

/-- A transitive relation stays so where values may be missing. -/
theorem Below.trans {α : Type} {R : α → α → Prop} {x y z : Option α} (hxy : Below R x y)
    (hyz : Below R y z)
    (h : ∀ a b c, x = some a → y = some b → z = some c → R a b → R b c → R a c) :
    Below R x z := fun a ha => by
  obtain ⟨b, hb, hab⟩ := hxy a ha
  obtain ⟨c, hc, hbc⟩ := hyz b hb
  exact ⟨c, hc, h a b c ha hb hc hab hbc⟩

/-- Whether two values are the same or the second is the top one. -/
def SameOrTop {α : Type} (top p q : α) : Prop := p = q ∨ q = top

/-- A value is there that is `p` or the top one exactly when what is there is one of them. -/
theorem sameOrTop_iff {α : Type} {x : Option α} {top p : α} :
    (∃ m, x = some m ∧ SameOrTop top p m) ↔ x = some p ∨ x = some top := by
  constructor
  · rintro ⟨m, h, rfl | rfl⟩
    · exact .inl h
    · exact .inr h
  · rintro (h | h)
    · exact ⟨p, h, .inl rfl⟩
    · exact ⟨top, h, .inr rfl⟩

/-- Numbers are at most numbers of the same kind, and all of them at most floats. -/
def NumberPart.Le : NumberPart → NumberPart → Prop := SameOrTop .float

/-- Texts are at most texts of the same kind, and all of them at most plain texts. -/
def StringPart.Le : StringPart → StringPart → Prop := SameOrTop .plain

/-- The empty array is at most every array, another one at most those with items at least as wide.
-/
def ArrayPart.Le (p q : ArrayPart) : Prop :=
  p.empty = true ∨ q.empty = false ∧ p.element ≤ q.element

/-- An object is at most one that has all its fields, at least as wide and optional where they are,
and of other fields only optional ones. -/
def ObjectPart.Le (p q : ObjectPart) : Prop :=
  (∀ f ∈ p.fields, ∃ g ∈ q.fields, g.name = f.name ∧ f.type ≤ g.type ∧
      (f.optional = true → g.optional = true)) ∧
    ∀ g ∈ q.fields, g.name ∉ p.fields.map Field.name → g.optional = true

/-- The order bucket by bucket. -/
structure Parts.Le (p q : Parts) : Prop where
  bool   : p.bool = true → q.bool = true
  number : Below NumberPart.Le p.number q.number
  string : Below StringPart.Le p.string q.string
  array  : Below ArrayPart.Le p.array q.array
  object : Below ObjectPart.Le p.object q.object

section
variable {c : Schema} {q : Parts} (hq : ∀ t, t ∈ c.components ↔ t ∈ q.toList)
include hq

/-- Truth values are below a schema that has a part for them. -/
theorem bool_le_iff : Schema.bool ≤ c ↔ q.bool = true := by
  show Schema.bool ∈ c.components ↔ _
  rw [hq, Parts.mem_toList_iff_of_bucket rfl, Parts.variant?]
  cases q.bool <;> simp

/-- A component is the part of its bucket. -/
theorem mem_components_iff_of_bucket {α : Type} {f : α → Schema} {x : Option α} {b : Bucket}
    (hb : ∀ a, (f a).kind.bucket? = some b) (hx : q.variant? b = x.map f)
    (hf : ∀ {a a'}, f a = f a' → a = a') (a : α) : f a ∈ c.components ↔ x = some a := by
  rw [hq, Parts.mem_toList_iff_of_bucket (hb a), hx, Option.map_eq_some_iff]
  exact ⟨fun ⟨_, h, e⟩ => hf e ▸ h, fun h => ⟨a, h, rfl⟩⟩

/-- The number part of a schema is its only component for numbers. -/
theorem mem_number_iff (m : NumberPart) : m.toSchema ∈ c.components ↔ q.number = some m :=
  mem_components_iff_of_bucket hq (b := .number) (fun n => by cases n <;> rfl) rfl
    (fun {n n'} h => by cases n <;> cases n' <;> first | rfl | cases h) m

/-- The string part of a schema is its only component for texts. -/
theorem mem_string_iff (m : StringPart) : m.toSchema ∈ c.components ↔ q.string = some m :=
  mem_components_iff_of_bucket hq (b := .string) (fun s => by cases s <;> rfl) rfl
    (fun {s s'} h => by cases s <;> cases s' <;> first | rfl | cases h) m

theorem mem_array_iff (m : ArrayPart) : m.toSchema ∈ c.components ↔ q.array = some m :=
  mem_components_iff_of_bucket hq (b := .array) (fun _ => rfl) rfl
    (fun {a a'} h => by obtain ⟨_, _⟩ := a; obtain ⟨_, _⟩ := a'; cases h; rfl) m

theorem mem_object_iff (m : ObjectPart) : m.toSchema ∈ c.components ↔ q.object = some m :=
  mem_components_iff_of_bucket hq (b := .object) (fun _ => rfl) rfl
    (fun {o o'} h => by obtain ⟨_, _, _⟩ := o; obtain ⟨_, _, _⟩ := o'; cases h; rfl) m

theorem NumberPart.le_iff (p : NumberPart) :
    p.toSchema ≤ c ↔ ∃ m, q.number = some m ∧ p.Le m := by
  refine Iff.trans ?_ sameOrTop_iff.symm
  cases p with
  | int => exact or_congr (mem_number_iff hq .int) (mem_number_iff hq .float)
  | float => exact (mem_number_iff hq .float).trans (or_self_iff).symm

theorem StringPart.le_iff (p : StringPart) :
    p.toSchema ≤ c ↔ ∃ m, q.string = some m ∧ p.Le m := by
  refine Iff.trans ?_ sameOrTop_iff.symm
  cases p with
  | plain => exact (mem_string_iff hq .plain).trans (or_self_iff).symm
  | numeric => exact or_congr (mem_string_iff hq .numeric) (mem_string_iff hq .plain)
  | timestamp => exact or_congr (mem_string_iff hq .timestamp) (mem_string_iff hq .plain)

theorem ArrayPart.le_iff (p : ArrayPart) :
    p.toSchema ≤ c ↔ ∃ m, q.array = some m ∧ p.Le m := by
  obtain ⟨e, empty⟩ := p
  cases empty with
  | true =>
      constructor
      · rintro ⟨f, m, h⟩
        exact ⟨⟨f, m⟩, (mem_array_iff hq ⟨f, m⟩).mp h, .inl rfl⟩
      · rintro ⟨⟨f, m⟩, h, -⟩
        exact ⟨f, m, (mem_array_iff hq ⟨f, m⟩).mpr h⟩
  | false =>
      constructor
      · rintro ⟨f, h, hle⟩
        exact ⟨⟨f, false⟩, (mem_array_iff hq ⟨f, false⟩).mp h, .inr ⟨rfl, hle⟩⟩
      · rintro ⟨⟨f, m⟩, h, hle⟩
        obtain ⟨rfl, hle⟩ := hle.resolve_left nofun
        exact ⟨f, (mem_array_iff hq ⟨f, false⟩).mpr h, hle⟩

theorem ObjectPart.le_iff (p : ObjectPart) :
    p.toSchema ≤ c ↔ ∃ m, q.object = some m ∧ p.Le m := by
  constructor
  · rintro ⟨n, k, gs, h, hfs, hgs⟩
    exact ⟨⟨n, k, gs⟩, (mem_object_iff hq ⟨n, k, gs⟩).mp h, fieldsLe_iff.mp hfs, hgs⟩
  · rintro ⟨⟨n, k, gs⟩, h, hfs, hgs⟩
    exact ⟨n, k, gs, (mem_object_iff hq ⟨n, k, gs⟩).mpr h, fieldsLe_iff.mpr hfs, hgs⟩

/-- **Parts are below a schema exactly if they are below its parts, bucket by bucket.** -/
theorem Parts.le_iff {p : Parts} : (∀ t ∈ p.toList, t ≤ c) ↔ p.Le q := by
  constructor
  · intro h
    refine ⟨fun hb => (bool_le_iff hq).mp (h _ ?_), fun n hn => (NumberPart.le_iff hq n).mp (h _ ?_),
      fun s hs => (StringPart.le_iff hq s).mp (h _ ?_),
      fun a ha => (ArrayPart.le_iff hq a).mp (h _ ?_),
      fun o ho => (ObjectPart.le_iff hq o).mp (h _ ?_)⟩ <;> rw [mem_toList_iff]
    · exact .inl ⟨hb, rfl⟩
    · exact .inr (.inl ⟨n, hn, rfl⟩)
    · exact .inr (.inr (.inl ⟨s, hs, rfl⟩))
    · exact .inr (.inr (.inr (.inl ⟨a, ha, rfl⟩)))
    · exact .inr (.inr (.inr (.inr ⟨o, ho, rfl⟩)))
  · intro h t ht
    rcases mem_toList_iff.mp ht with ⟨hb, rfl⟩ | ⟨n, hn, rfl⟩ | ⟨s, hs, rfl⟩ | ⟨a, ha, rfl⟩ |
      ⟨o, ho, rfl⟩
    · exact (bool_le_iff hq).mpr (h.bool hb)
    · exact (NumberPart.le_iff hq n).mpr (h.number n hn)
    · exact (StringPart.le_iff hq s).mpr (h.string s hs)
    · exact (ArrayPart.le_iff hq a).mpr (h.array a ha)
    · exact (ObjectPart.le_iff hq o).mpr (h.object o ho)

end

/-! ### The order on well-formed schemas -/

/-- A schema of one bucket is its own only component. -/
theorem components_of_bucket {t : Schema} {b : Bucket} (h : t.kind.bucket? = some b) :
    t.components = [t] := by
  cases t with
  | null | optional _ | union _ => cases h
  | _ => rfl

/-- Schemas that have buckets are their own components. -/
theorem componentsOfAll_of_buckets : ∀ {ts : List Schema},
    (∀ t ∈ ts, ∃ b, t.kind.bucket? = some b) → componentsOfAll ts = ts
  | [], _ => rfl
  | t :: ts, h => by
      obtain ⟨⟨b, hb⟩, hts⟩ := List.forall_mem_cons.mp h
      rw [componentsOfAll, components_of_bucket hb, componentsOfAll_of_buckets hts]
      rfl

namespace Schema.WellFormed
variable {k l : Conditions}

theorem componentsOfAll_eq {ts : List Schema} (h : k.union ts) : componentsOfAll ts = ts :=
  componentsOfAll_of_buckets fun _ => (k.isChoice h).exists_bucket

/-- The components of a well-formed schema are its parts. -/
theorem mem_components_iff : ∀ {c : Schema}, c.WellFormed k → ∀ t,
    t ∈ c.components ↔ t ∈ c.parts.toList
  | .null, _, _ => Iff.rfl
  | .bool, _, _ | .int, _, _ | .float, _, _ | .string false, _, _ | .string true, _, _
  | .timestamp, _, _ | .array .., _, _ | .object .., _, _ => Iff.rfl
  | .optional c, h, t => mem_components_iff (c := c) h.2 t
  | .union ts, h, t => by
      rw [Schema.components, Schema.parts, componentsOfAll_eq h.1, (k.isChoice h.1).mem_toList_iff]

/-- A schema is wider than a well-formed one when it is nullable if that is, and wider than each of
its components. -/
theorem le_iff_components {c : Schema} : ∀ {a : Schema}, a.WellFormed k →
    (a ≤ c ↔ (a.isNullable = true → c.isNullable = true) ∧ ∀ t ∈ a.components, t ≤ c)
  | .null, _ => by
      show c.isNullable = true ↔ (true = true → _) ∧ ∀ t ∈ [], t ≤ c
      simp
  | .bool, _ | .int, _ | .float, _ | .string _, _ | .timestamp, _ | .array .., _
  | .object .., _ => by simp [components, isNullable]
  | .optional t, h => by
      show c.isNullable = true ∧ t ≤ c ↔ (true = true → _) ∧ ∀ u ∈ t.components, u ≤ c
      rw [le_iff_components h.2]
      constructor
      · rintro ⟨hc, -, hall⟩
        exact ⟨fun _ => hc, hall⟩
      · rintro ⟨hc, hall⟩
        exact ⟨hc rfl, fun _ => hc rfl, hall⟩
  | .union ts, h => by
      show allLe ts c ↔ (false = true → _) ∧ ∀ t ∈ componentsOfAll ts, t ≤ c
      rw [allLe_iff, componentsOfAll_eq h.1]
      simp

/-- On well-formed schemas the order is that of their nullability and of their parts. -/
theorem le_iff {a c : Schema} (ha : a.WellFormed k) (hc : c.WellFormed l) :
    a ≤ c ↔ (a.isNullable = true → c.isNullable = true) ∧ a.parts.Le c.parts := by
  rw [ha.le_iff_components, ← Parts.le_iff hc.mem_components_iff]
  refine and_congr_right fun _ => forall_congr' fun t => ?_
  rw [ha.mem_components_iff]

end Schema.WellFormed

end SampleSchema
