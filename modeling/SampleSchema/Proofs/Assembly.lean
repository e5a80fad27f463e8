import Mathlib.Data.List.Forall2
import SampleSchema.Schema.Merge

/-!
# Taking schemas apart and putting them together

`Parts.assemble` is a choice between the schemas of the parts (`assemble_eq_choice`), and taking it
apart gives the parts back (`Parts.parts_assemble`).  Admitting null at the top of an assembled
schema changes its nullability and nothing else (`Parts.makeOptional_assemble`).

A relation between schemas that respects optionals and unions relates what parts make when it
relates the parts, bucket by bucket (`IsCongruence.assemble`).
-/

namespace SampleSchema

/-! ### A choice between types -/

/-- The choice between types: null when there is none, the only one, or a union.  A nullable choice
admits null as well. -/
def Schema.choice (nullable : Bool) : List Schema → Schema
  | []  => .null
  | [t] => if nullable then .optional t else t
  | ts  => if nullable then .optional (.union ts) else .union ts

/-- Assembled parts are a choice between them. -/
theorem Parts.assemble_eq_choice (nullable : Bool) (p : Parts) :
    p.assemble nullable = Schema.choice nullable p.toList := rfl

/-- A choice between types none of which is nullable is nullable when asked to be, or when there is
nothing to choose from. -/
theorem Schema.isNullable_choice (nullable : Bool) : ∀ {ts : List Schema},
    (∀ t ∈ ts, t.isNullable = false) →
      (Schema.choice nullable ts).isNullable = (nullable || ts.isEmpty)
  | [], _ => by simp [Schema.choice, Schema.isNullable]
  | [t], h => by
      have ht : t.isNullable = false := h t (List.mem_singleton_self t)
      cases nullable
      · exact ht
      · rfl
  | _ :: _ :: _, _ => by cases nullable <;> rfl

/-- A choice that may also be null. -/
theorem Schema.makeOptional_choice (nullable : Bool) : ∀ {ts : List Schema},
    (∀ t ∈ ts, t.isNullable = false) →
      (Schema.choice nullable ts).makeOptional = Schema.choice true ts
  | [], _ => rfl
  | [t], h => by
      cases nullable
      · exact Schema.makeOptional_of_not_isNullable (h t (List.mem_singleton_self t))
      · rfl
  | _ :: _ :: _, _ => by cases nullable <;> rfl

/-! ### The parts of a list of types -/

namespace Parts

/-- Of parts in a row the last in each bucket counts. -/
theorem overriddenBy_assoc (p q r : Parts) :
    (p.overriddenBy q).overriddenBy r = p.overriddenBy (q.overriddenBy r) := by
  simp only [overriddenBy, Bool.or_assoc, Option.or_assoc]

@[simp] theorem overriddenBy_empty (p : Parts) : p.overriddenBy {} = p := by
  simp [overriddenBy]

@[simp] theorem empty_overriddenBy (p : Parts) : overriddenBy {} p = p := by
  simp [overriddenBy]

end Parts

theorem partsOfAll_append (us : List Schema) : ∀ ts : List Schema,
    partsOfAll (ts ++ us) = (partsOfAll ts).overriddenBy (partsOfAll us)
  | []      => by simp [partsOfAll]
  | t :: ts => by
      simp only [List.cons_append, partsOfAll, partsOfAll_append us ts, Parts.overriddenBy_assoc]

/-- The parts of a choice are those of the types to choose from. -/
theorem Schema.parts_choice (nullable : Bool) : ∀ ts : List Schema,
    (Schema.choice nullable ts).parts = partsOfAll ts
  | []  => by simp [Schema.choice, Schema.parts, partsOfAll]
  | [t] => by cases nullable <;> simp [Schema.choice, Schema.parts, partsOfAll]
  | _ :: _ :: _ => by cases nullable <;> simp [Schema.choice, Schema.parts]

/-! ### Parts put together and taken apart again -/

namespace Parts

theorem mem_toList_iff {p : Parts} {t : Schema} : t ∈ p.toList ↔
    (p.bool = true ∧ t = .bool) ∨ (∃ n, p.number = some n ∧ n.toSchema = t) ∨
      (∃ s, p.string = some s ∧ s.toSchema = t) ∨ (∃ a, p.array = some a ∧ a.toSchema = t) ∨
      ∃ o, p.object = some o ∧ o.toSchema = t := by
  have hb : t ∈ (if p.bool then [Schema.bool] else []) ↔ p.bool = true ∧ t = .bool := by
    cases p.bool <;> simp
  simp only [toList, List.mem_append, Option.mem_toList, Option.map_eq_some_iff, hb, or_assoc]

/-- No part is nullable. -/
theorem isNullable_of_mem_toList {p : Parts} {t : Schema} (h : t ∈ p.toList) :
    t.isNullable = false := by
  rcases mem_toList_iff.mp h with ⟨-, rfl⟩ | ⟨n, -, rfl⟩ | ⟨s, -, rfl⟩ | ⟨a, -, rfl⟩ | ⟨o, -, rfl⟩
  · rfl
  · cases n <;> rfl
  · cases s <;> rfl
  · rfl
  · rfl

theorem toList_eq_nil_iff {p : Parts} : p.toList = [] ↔
    p.bool = false ∧ p.number = none ∧ p.string = none ∧ p.array = none ∧ p.object = none := by
  simp [toList]

/-- **Parts are recovered from their schemas.** -/
theorem partsOfAll_toList (p : Parts) : partsOfAll p.toList = p := by
  obtain ⟨b, n, s, a, o⟩ := p
  -- each bucket contributes its own part only, so no part overrides another
  have hb : partsOfAll (if b then [Schema.bool] else []) = { bool := b } := by
    cases b <;> simp [partsOfAll, Schema.parts]
  have hn : partsOfAll (n.map NumberPart.toSchema).toList = { number := n } := by
    rcases n with _ | (_ | _) <;> simp [partsOfAll, Schema.parts, NumberPart.toSchema]
  have hs : partsOfAll (s.map StringPart.toSchema).toList = { string := s } := by
    rcases s with _ | (_ | _ | _) <;> simp [partsOfAll, Schema.parts, StringPart.toSchema]
  have ha : partsOfAll (a.map ArrayPart.toSchema).toList = { array := a } := by
    cases a <;> simp [partsOfAll, Schema.parts, ArrayPart.toSchema]
  have ho : partsOfAll (o.map ObjectPart.toSchema).toList = { object := o } := by
    cases o <;> simp [partsOfAll, Schema.parts, ObjectPart.toSchema]
  simp only [toList, partsOfAll_append, hb, hn, hs, ha, ho, overriddenBy, Bool.or_false,
    Option.or_none, Option.none_or]

/-- Taking assembled parts apart gives the parts back. -/
theorem parts_assemble (nullable : Bool) (p : Parts) : (p.assemble nullable).parts = p := by
  rw [assemble_eq_choice, Schema.parts_choice, partsOfAll_toList]

/-- Assembled parts may be null if that is said or if there are none. -/
theorem isNullable_assemble (nullable : Bool) (p : Parts) :
    (p.assemble nullable).isNullable = (nullable || p.toList.isEmpty) :=
  Schema.isNullable_choice nullable fun _ h => isNullable_of_mem_toList h

/-- Admitting null in an assembled schema is assembling it as nullable. -/
theorem makeOptional_assemble (nullable : Bool) (p : Parts) :
    (p.assemble nullable).makeOptional = p.assemble true :=
  Schema.makeOptional_choice nullable fun _ h => isNullable_of_mem_toList h

end Parts

/-- What a function gives for the parts, bucket by bucket. -/
theorem Parts.map_toList {β : Type} (f : Schema → β) (p : Parts) : p.toList.map f =
    (if p.bool then [f .bool] else []) ++ (p.number.map fun n => f n.toSchema).toList ++
      (p.string.map fun s => f s.toSchema).toList ++ (p.array.map fun a => f a.toSchema).toList ++
      (p.object.map fun o => f o.toSchema).toList := by
  obtain ⟨b, n, s, a, o⟩ := p
  cases b <;> cases n <;> cases s <;> cases a <;> cases o <;> rfl

/-! ### Related parts -/

/-- Whether a relation between schemas relates each to itself and respects optionals and unions. -/
structure IsCongruence (R : Schema → Schema → Prop) : Prop where
  refl     : ∀ t, R t t
  optional : ∀ {t u}, R t u → R (.optional t) (.optional u)
  union    : ∀ {ts us}, List.Forall₂ R ts us → R (.union ts) (.union us)

namespace IsCongruence
variable {R : Schema → Schema → Prop} (h : IsCongruence R)
include h

theorem choice (nullable : Bool) : ∀ {ts us : List Schema}, List.Forall₂ R ts us →
    R (Schema.choice nullable ts) (Schema.choice nullable us)
  | _, _, .nil => h.refl _
  | _, _, .cons htu .nil => by
      cases nullable
      · exact htu
      · exact h.optional htu
  | _, _, .cons htu (.cons htu' hs) => by
      cases nullable
      · exact h.union (.cons htu (.cons htu' hs))
      · exact h.optional (h.union (.cons htu (.cons htu' hs)))

/-- What parts make is related when the parts are, bucket by bucket. -/
theorem assemble (nullable : Bool) {p q : Parts} (hb : p.bool = q.bool)
    (hn : Option.Rel (fun m n => R m.toSchema n.toSchema) p.number q.number)
    (hs : Option.Rel (fun s t => R s.toSchema t.toSchema) p.string q.string)
    (ha : Option.Rel (fun a b => R a.toSchema b.toSchema) p.array q.array)
    (ho : Option.Rel (fun a b => R a.toSchema b.toSchema) p.object q.object) :
    R (p.assemble nullable) (q.assemble nullable) := by
  have htoList : ∀ {α : Type} {f : α → Schema} {x y : Option α},
      Option.Rel (fun a b => R (f a) (f b)) x y →
        List.Forall₂ R (x.map f).toList (y.map f).toList := by
    intro α f x y hxy
    cases hxy with
    | none => exact .nil
    | some hab => exact .cons hab .nil
  have hbool : List.Forall₂ R (if q.bool then [Schema.bool] else [])
      (if q.bool then [Schema.bool] else []) := List.forall₂_same.mpr fun t _ => h.refl t
  rw [Parts.assemble_eq_choice, Parts.assemble_eq_choice, Parts.toList, Parts.toList, hb]
  refine h.choice nullable (List.rel_append (List.rel_append (List.rel_append
    (List.rel_append hbool ?_) ?_) ?_) ?_)
  · exact htoList hn
  · exact htoList hs
  · exact htoList ha
  · exact htoList ho

end IsCongruence

/-! ### Merging fields -/

/-- The field merged with the last field of its name among `others`, counted among `total`
objects. -/
def Field.mergeInto (total : Int) (others : List (Field Schema)) (f : Field Schema) :
    Field Schema :=
  match lastField? others f.name with
  | some g => Field.ofCounts f.name (f.type.merge g.type) (f.observed + g.observed) total
  | none => Field.ofCounts f.name f.type f.observed total

theorem mergeFields_eq_map (total : Int) (others : List (Field Schema)) :
    ∀ fs : List (Field Schema), mergeFields total others fs = fs.map (Field.mergeInto total others)
  | []      => by rw [mergeFields, List.map_nil]
  | f :: fs => by rw [mergeFields, mergeFields_eq_map total others fs, List.map_cons]; rfl

/-- Among fields that a function gives for names, the last field of a name is the one that the
function gives for it. -/
theorem lastField?_map {g : String → Field Schema} (hg : ∀ name, (g name).name = name)
    (names : List String) (name : String) :
    lastField? (names.map g) name = if name ∈ names then some (g name) else none := by
  have h : ((fun f : Field Schema => decide (f.name = name)) ∘ g) = fun n => decide (n = name) :=
    funext fun n => by simp only [Function.comp_apply, hg]
  rw [lastField?, ← List.map_reverse, List.find?_map, h]
  split
  · rename_i hmem
    obtain ⟨n, hn⟩ : ∃ n, names.reverse.find? (fun n => decide (n = name)) = some n :=
      Option.isSome_iff_exists.mp (List.find?_isSome.mpr ⟨name, List.mem_reverse.mpr hmem, by simp⟩)
    obtain rfl : n = name := by simpa using List.find?_some hn
    rw [hn, Option.map_some]
  · rename_i hmem
    have : names.reverse.find? (fun n => decide (n = name)) = none :=
      List.find?_eq_none.mpr fun n hn e => by
        simp only [decide_eq_true_eq] at e
        exact hmem (e ▸ List.mem_reverse.mp hn)
    rw [this, Option.map_none]

end SampleSchema
