import SampleSchema.Proofs.LeastUpperBound
import SampleSchema.Schema.Conflict

/-!
# Positions inside a schema

From the top of a schema one gets further inside through the elements of its arrays, unless these are
all empty, and through the fields of its objects.  A `Position` is a list of such steps, and
`Parts.at?` gives the parts that a schema has there, if there is such a position in it.

Where two schemas with distinct field names have a position in common, their merge has it too, with
the parts of the two merged (`Parts.at?_merge`), and if one is below the other then so it is there
(`Parts.Le.at?`).
-/

namespace SampleSchema

/-- A step further inside a schema. -/
inductive Inward where
  | element
  | field (name : String)
  deriving DecidableEq, Repr

/-- Where in a schema something stands, as the steps from the top to it. -/
abbrev Position := List Inward

/-- The path after one more step. -/
def Inward.path (parent : String) : Inward → String
  | .element    => elementPath parent
  | .field name => fieldPath parent name

/-- The path of a position, if the top has the given one. -/
def Position.path (top : String) (pos : Position) : String := pos.foldl Inward.path top

theorem Position.path_cons (top : String) (i : Inward) (pos : Position) :
    Position.path top (i :: pos) = Position.path (i.path top) pos := rfl

namespace Parts

/-- The parts one step further inside.  There is nothing inside arrays that are all empty. -/
def inside? (p : Parts) : Inward → Option Parts
  | .element    => p.array.bind fun a => if a.empty then none else some a.element.parts
  | .field name => p.object.bind fun o => (lastField? o.fields name).map fun f => f.type.parts

/-- The parts at a position. -/
def at? (p : Parts) : Position → Option Parts
  | []       => some p
  | i :: pos => (p.inside? i).bind fun q => q.at? pos

theorem at?_cons {p r : Parts} {i : Inward} {pos : Position} :
    p.at? (i :: pos) = some r ↔ ∃ q, p.inside? i = some q ∧ q.at? pos = some r :=
  Option.bind_eq_some_iff

/-- What stands inside of an array are its items, if it has any. -/
theorem inside?_element {p q : Parts} : p.inside? .element = some q ↔
    ∃ a, p.array = some a ∧ a.empty = false ∧ a.element.parts = q := by
  refine Option.bind_eq_some_iff.trans (exists_congr fun a => and_congr_right fun _ => ?_)
  cases a.empty <;> simp

/-- What stands inside of an object is the type of a field. -/
theorem inside?_field {p q : Parts} {name : String} : p.inside? (.field name) = some q ↔
    ∃ o, p.object = some o ∧ ∃ f, lastField? o.fields name = some f ∧ f.type.parts = q :=
  Option.bind_eq_some_iff.trans
    (exists_congr fun _ => and_congr_right fun _ => Option.map_eq_some_iff)

end Parts

/-! ### Positions in well-formed schemas -/

/-- The parts of a schema do not change when it may also be null. -/
theorem Schema.parts_makeOptional (t : Schema) : t.makeOptional.parts = t.parts := by
  cases t <;> rfl

/-- The counters of a field do not change the parts of its type. -/
theorem parts_ofCounts_type (name : String) (t : Schema) (observed total : Int) :
    (Field.ofCounts name t observed total).type.parts = t.parts := by
  rw [Field.ofCounts_type]
  split
  · exact t.parts_makeOptional
  · rfl

namespace Parts
variable {k : Conditions} {p q r s : Parts} {i : Inward} {pos : Position}

/-- What stands inside of well-formed parts is well formed. -/
theorem WellFormed.inside? (hp : p.WellFormed k) (h : p.inside? i = some r) : r.WellFormed k := by
  cases i with
  | element =>
      obtain ⟨a, ha, -, rfl⟩ := inside?_element.mp h
      exact (hp.array ha).2.parts
  | field name =>
      obtain ⟨o, ho, f, hf, rfl⟩ := inside?_field.mp h
      exact (fieldsWellFormed_iff.mp (hp.object ho).2 f (mem_of_lastField? hf).1).parts

section
variable (hk : ∀ p, k.object p → (p.fields.map Field.name).Nodup)
include hk

theorem inside?_merge (hp : p.WellFormed k) (hq : q.WellFormed k) (hr : p.inside? i = some r)
    (hs : q.inside? i = some s) : (p.merge q).inside? i = some (r.merge s) := by
  cases i with
  | element =>
      obtain ⟨a, ha, hae, rfl⟩ := inside?_element.mp hr
      obtain ⟨b, hb, hbe, rfl⟩ := inside?_element.mp hs
      refine inside?_element.mpr ⟨⟨a.element.merge b.element, false⟩, ?_, rfl, Schema.parts_merge ..⟩
      simp [merge, ha, hb, ArrayPart.merge, hae, hbe]
  | field name =>
      obtain ⟨o, ho, f, hlast, rfl⟩ := inside?_field.mp hr
      obtain ⟨u, hu, g, hlast', rfl⟩ := inside?_field.mp hs
      obtain ⟨hf, rfl⟩ := mem_of_lastField? hlast
      obtain ⟨hg, hn⟩ := mem_of_lastField? hlast'
      have hou : (p.merge q).object = some (o.merge u) := by simp [merge, ho, hu]
      have hno := hk o (hp.object ho).1
      have hnu := hk u (hq.object hu).1
      have hmem := (ObjectPart.MergedField.both hf hg hn).mem hnu
      have hmerged := lastField?_eq_some (ObjectPart.nodup_names_merge hno hnu) hmem
      rw [Field.ofCounts_name] at hmerged
      refine inside?_field.mpr ⟨_, hou, _, hmerged, ?_⟩
      rw [parts_ofCounts_type, Schema.parts_merge]

/-- **At a position that two schemas have in common the merge has the merged parts.** -/
theorem at?_merge : ∀ {pos : Position} {p q r s : Parts}, p.WellFormed k → q.WellFormed k →
    p.at? pos = some r → q.at? pos = some s → (p.merge q).at? pos = some (r.merge s)
  | [], _, _, _, _, _, _, hr, hs => by
      cases hr
      cases hs
      rfl
  | i :: pos, _, _, _, _, hp, hq, hr, hs => by
      obtain ⟨p', hp', hr⟩ := at?_cons.mp hr
      obtain ⟨q', hq', hs⟩ := at?_cons.mp hs
      exact at?_cons.mpr ⟨_, inside?_merge hk hp hq hp' hq',
        at?_merge (hp.inside? hp') (hq.inside? hq') hr hs⟩

theorem Le.inside? (hp : p.WellFormed k) (hq : q.WellFormed k) (h : p.Le q)
    (hr : p.inside? i = some r) (hs : q.inside? i = some s) : r.Le s := by
  cases i with
  | element =>
      obtain ⟨a, ha, hae, rfl⟩ := inside?_element.mp hr
      obtain ⟨b, hb, -, rfl⟩ := inside?_element.mp hs
      obtain ⟨b', hb', hle⟩ := h.array a ha
      rw [hb] at hb'
      cases hb'
      have hle : a.element ≤ b.element := by
        rcases hle with he | ⟨-, hle⟩
        · rw [hae] at he
          cases he
        · exact hle
      exact (((hp.array ha).2.le_iff (hq.array hb).2).mp hle).2
  | field name =>
      obtain ⟨o, ho, f, hlast, rfl⟩ := inside?_field.mp hr
      obtain ⟨u, hu, g, hlast', rfl⟩ := inside?_field.mp hs
      obtain ⟨u', hu', hle⟩ := h.object o ho
      rw [hu] at hu'
      cases hu'
      obtain ⟨hf, rfl⟩ := mem_of_lastField? hlast
      obtain ⟨hg, hn⟩ := mem_of_lastField? hlast'
      have how := hp.object ho
      have huw := hq.object hu
      obtain ⟨hle, -⟩ := hle.optional_of_name_eq (hk u huw.1) hf hg hn
      have hfw := fieldsWellFormed_iff.mp how.2 f hf
      have hgw := fieldsWellFormed_iff.mp huw.2 g hg
      exact ((hfw.le_iff hgw).mp hle).2

/-- Parts that are below others are so at every position that they have in common. -/
theorem Le.at? : ∀ {pos : Position} {p q r s : Parts}, p.WellFormed k → q.WellFormed k → p.Le q →
    p.at? pos = some r → q.at? pos = some s → r.Le s
  | [], _, _, _, _, _, _, h, hr, hs => by
      cases hr
      cases hs
      exact h
  | i :: pos, _, _, _, _, hp, hq, h, hr, hs => by
      obtain ⟨p', hp', hr⟩ := at?_cons.mp hr
      obtain ⟨q', hq', hs⟩ := at?_cons.mp hs
      exact Le.at? (hp.inside? hp') (hq.inside? hq') (h.inside? hk hp hq hp' hq') hr hs

end

end Parts

end SampleSchema
