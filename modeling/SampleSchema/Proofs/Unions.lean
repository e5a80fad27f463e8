import SampleSchema.Proofs.WellFormed
import SampleSchema.Schema.Conflict

/-!
# The unions in a schema

`Schema.unions path t` lists the unions in `t` with the paths at which they stand, if `t` stands at
`path`.  A schema in canonical form has a union of its own when it has two parts or more, and the
others are those of its arrays and objects (`Schema.WellFormed.unions_eq`).
-/

namespace SampleSchema

mutual

/-- The unions in a schema at a path, each with its path and its variants. -/
def Schema.unions (path : String) : Schema → List (String × List Schema)
  | .array e _     => e.unions (elementPath path)
  | .object _ _ fs => fieldUnions path fs
  | .optional t    => t.unions path
  | .union ts      => (path, ts) :: unionsOfAll path ts
  | .null | .bool | .int | .float | .string _ | .timestamp => []

/-- The unions in the types of fields. -/
def fieldUnions (path : String) : List (Field Schema) → List (String × List Schema)
  | [] => []
  | ⟨name, type, _, _, _⟩ :: fs => type.unions (fieldPath path name) ++ fieldUnions path fs

/-- The unions in several schemas. -/
def unionsOfAll (path : String) : List Schema → List (String × List Schema)
  | []      => []
  | t :: ts => t.unions path ++ unionsOfAll path ts

end

section
variable {path : String}

theorem mem_fieldUnions_iff {u : String × List Schema} : ∀ {fs : List (Field Schema)},
    u ∈ fieldUnions path fs ↔ ∃ f ∈ fs, u ∈ f.type.unions (fieldPath path f.name)
  | [] => by simp [fieldUnions]
  | f :: fs => by
      rw [fieldUnions, List.mem_append, mem_fieldUnions_iff]
      simp

theorem unionsOfAll_cons (path : String) (t : Schema) (ts : List Schema) :
    unionsOfAll path (t :: ts) = t.unions path ++ unionsOfAll path ts := rfl

theorem unionsOfAll_append (us : List Schema) : ∀ ts : List Schema,
    unionsOfAll path (ts ++ us) = unionsOfAll path ts ++ unionsOfAll path us
  | []      => rfl
  | t :: ts => by
      rw [List.cons_append, unionsOfAll_cons, unionsOfAll_cons, unionsOfAll_append us ts,
        List.append_assoc]

/-- There are the same unions in a schema that may also be null. -/
theorem Schema.unions_makeOptional (t : Schema) : t.makeOptional.unions path = t.unions path := by
  cases t <;> rfl

/-- There are the same unions in a field with other counters. -/
theorem unions_ofCounts_type (name : String) (t : Schema) (observed total : Int) :
    (Field.ofCounts name t observed total).type.unions path = t.unions path := by
  rw [Field.ofCounts_type]
  split
  · exact t.unions_makeOptional
  · rfl

end

/-! ### The unions of parts -/

/-- The union at a path of types to choose from, if there are two or more. -/
def ownUnion (path : String) (ts : List Schema) : List (String × List Schema) :=
  if 2 ≤ ts.length then [(path, ts)] else []

/-- The unions inside the arrays of a part. -/
def arrayUnions (path : String) (a : Option ArrayPart) : List (String × List Schema) :=
  a.elim [] fun p => p.element.unions (elementPath path)

/-- The unions inside the objects of a part. -/
def objectUnions (path : String) (o : Option ObjectPart) : List (String × List Schema) :=
  o.elim [] fun p => fieldUnions path p.fields

/-- The unions of a choice are its own and those of its members. -/
theorem Schema.unions_choice (path : String) (nullable : Bool) : ∀ ts : List Schema,
    (Schema.choice nullable ts).unions path = ownUnion path ts ++ unionsOfAll path ts
  | []  => rfl
  | [t] => by cases nullable <;> simp [Schema.choice, unions, ownUnion, unionsOfAll]
  | _ :: _ :: _ => by cases nullable <;> simp [Schema.choice, unions, ownUnion]

/-- The unions inside of parts are those in arrays and objects. -/
theorem Parts.unionsOfAll_toList (path : String) (p : Parts) :
    unionsOfAll path p.toList = arrayUnions path p.array ++ objectUnions path p.object := by
  obtain ⟨b, n, s, a, o⟩ := p
  have hb : unionsOfAll path (if b then [Schema.bool] else []) = [] := by cases b <;> rfl
  have hn : unionsOfAll path (n.map NumberPart.toSchema).toList = [] := by
    rcases n with _ | (_ | _) <;> rfl
  have hs : unionsOfAll path (s.map StringPart.toSchema).toList = [] := by
    rcases s with _ | (_ | _ | _) <;> rfl
  have ha : unionsOfAll path (a.map ArrayPart.toSchema).toList = arrayUnions path a := by
    cases a with
    | none => rfl
    | some a => exact List.append_nil _
  have ho : unionsOfAll path (o.map ObjectPart.toSchema).toList = objectUnions path o := by
    cases o with
    | none => rfl
    | some o => exact List.append_nil _
  simp only [toList, unionsOfAll_append, hb, hn, hs, ha, ho, List.nil_append]

/-- The unions in what parts make. -/
theorem Parts.unions_assemble (path : String) (nullable : Bool) (p : Parts) :
    (p.assemble nullable).unions path =
      ownUnion path p.toList ++ (arrayUnions path p.array ++ objectUnions path p.object) := by
  rw [assemble_eq_choice, Schema.unions_choice, unionsOfAll_toList]

/-- The unions of a well-formed schema, read off its parts. -/
theorem Schema.WellFormed.unions_eq {object : ObjectPart → Prop}
    {of_merge : ∀ {p q}, object p → object q → object (p.merge q)} {t : Schema}
    (ht : t.WellFormed (.canonical object of_merge)) (path : String) :
    t.unions path = ownUnion path t.parts.toList ++
      (arrayUnions path t.parts.array ++ objectUnions path t.parts.object) := by
  conv => lhs; rw [← ht.assemble_parts, Parts.unions_assemble]

end SampleSchema
