import SampleSchema.Proofs.Widening

/-!
# Widening is an order up to structure

On well-formed schemas the widening order is reflexive (`Schema.WellFormed.le_refl`) and transitive
(`Schema.WellFormed.le_trans`).  In canonical form two schemas are below each other exactly when they
have one signature (`Schema.WellFormed.le_antisymm_iff`): counts, names of objects and the order of
fields play no part in it.

Transitivity and antisymmetry need the fields of an object to have distinct names.  A field of the
middle schema could otherwise stand for two fields of the outer ones.
-/

namespace SampleSchema

/-! ### Structurally equal schemas -/

/-- Whether a signature says at its top that null occurs. -/
def Signature.isNullable : Signature → Bool
  | .leaf .null | .optional _ => true
  | _ => false

/-- Whether a schema may be null is told by its signature. -/
theorem Schema.isNullable_signature (t : Schema) : t.signature.isNullable = t.isNullable := by
  cases t <;> rfl

theorem IsChoice.isNullable_eq_false {ts : List Schema} (h : IsChoice ts) {t : Schema}
    (ht : t ∈ ts) : t.isNullable = false :=
  Parts.isNullable_of_mem_toList ((h.mem_toList_iff t).mpr ht)

section
variable {k : Conditions}

/-- The names of fields are those in their signatures. -/
theorem mem_names_of_signatures {fs gs : List (Field Schema)}
    (h : ∀ x ∈ fieldSignatures gs, x ∈ fieldSignatures fs) {g : Field Schema} (hg : g ∈ gs) :
    g.name ∈ fs.map Field.name := by
  rw [fieldSignatures_eq_map, fieldSignatures_eq_map] at h
  obtain ⟨f, hf, e⟩ := List.mem_map.mp (h _ (List.mem_map_of_mem hg))
  exact List.mem_map.mpr ⟨f, hf, congrArg Prod.fst e⟩

mutual

/-- Whatever has the components and the nullability of a structurally equal schema is wider. -/
theorem le_of_signature_eq : ∀ {a c d : Schema}, a.WellFormed k → a.signature = c.signature →
    c.components ⊆ d.components → (c.isNullable = true → d.isNullable = true) → a ≤ d
  | .null, c, d, _, h, _, hn => by
      cases c with
      | null => exact hn rfl
      | _ => cases h
  | .bool, c, d, _, h, hs, _ => by
      cases c with
      | bool => exact hs (List.mem_singleton_self _)
      | _ => cases h
  | .int, c, d, _, h, hs, _ => by
      cases c with
      | int => exact .inl (hs (List.mem_singleton_self _))
      | _ => cases h
  | .float, c, d, _, h, hs, _ => by
      cases c with
      | float => exact hs (List.mem_singleton_self _)
      | _ => cases h
  | .string numeric, c, d, _, h, hs, _ => by
      cases c with
      | string numeric' =>
          cases h
          cases numeric
          · exact hs (List.mem_singleton_self _)
          · exact .inl (hs (List.mem_singleton_self _))
      | _ => cases h
  | .timestamp, c, d, _, h, hs, _ => by
      cases c with
      | timestamp => exact .inl (hs (List.mem_singleton_self _))
      | _ => cases h
  | .array e empty, c, d, ha, h, hs, _ => by
      cases c with
      | array f empty' =>
          obtain ⟨he, rfl⟩ := Signature.array.inj h
          cases empty
          · exact ⟨f, hs (List.mem_singleton_self _),
              le_of_signature_eq ha.2 he (List.Subset.refl _) id⟩
          · exact ⟨f, true, hs (List.mem_singleton_self _)⟩
      | _ => cases h
  | .object n m fs, c, d, ha, h, hs, _ => by
      cases c with
      | object n' m' gs =>
          -- sorted fields have the same elements as fields in their own order
          have hmem : ∀ x, x ∈ fieldSignatures fs ↔ x ∈ fieldSignatures gs := fun x => by
            rw [← List.mem_mergeSort, Signature.object.inj h, List.mem_mergeSort]
          refine ⟨n', m', gs, hs (List.mem_singleton_self _),
            fieldsLe_of_signatures ha.2 fun x => (hmem x).mp, fun g hg hn => ?_⟩
          exact absurd (mem_names_of_signatures (fun x => (hmem x).mpr) hg) hn
      | _ => cases h
  | .optional t, c, d, ha, h, hs, hn => by
      cases c with
      | optional u =>
          exact ⟨hn rfl, le_of_signature_eq ha.2 (Signature.optional.inj h) hs fun _ => hn rfl⟩
      | _ => cases h
  | .union ts, c, d, ha, h, hs, _ => by
      cases c with
      | union us =>
          exact allLe_of_signatures ha.2 (fun _ => (k.isChoice ha.1).isNullable_eq_false)
            (Signature.union.inj h) hs
      | _ => cases h

/-- Fields are below others that have all of their signatures. -/
theorem fieldsLe_of_signatures : ∀ {fs gs : List (Field Schema)}, fieldsWellFormed k fs →
    (∀ x ∈ fieldSignatures fs, x ∈ fieldSignatures gs) → fieldsLe fs gs
  | [], _, _, _ => trivial
  | ⟨name, type, optional, observed, total⟩ :: fs, gs, hw, h => by
      refine ⟨?_, fieldsLe_of_signatures hw.2 fun x hx => h x (List.mem_cons_of_mem _ hx)⟩
      have hmem := h _ (List.mem_cons_self)
      rw [fieldSignatures_eq_map gs] at hmem
      obtain ⟨g, hg, e⟩ := List.mem_map.mp hmem
      simp only [Prod.mk.injEq] at e
      obtain ⟨hname, htype, hopt⟩ := e
      exact ⟨g, hg, hname, le_of_signature_eq hw.1 htype.symm (List.Subset.refl _) id,
        fun ho => hopt ▸ ho⟩

/-- Schemas are below a schema that has the components of others with the same signatures. -/
theorem allLe_of_signatures : ∀ {ts us : List Schema} {d : Schema}, allWellFormed k ts →
    (∀ t ∈ ts, t.isNullable = false) → signatures ts = signatures us →
      componentsOfAll us ⊆ d.components → allLe ts d
  | [], _, _, _, _, _, _ => trivial
  | _ :: _, [], _, _, _, h, _ => by cases h
  | t :: ts, u :: us, d, hw, hn, h, hs => by
      obtain ⟨hsig, hrest⟩ := List.cons_eq_cons.mp h
      obtain ⟨ht, hts⟩ := List.forall_mem_cons.mp hn
      have hu : u.isNullable = false := by
        rw [← u.isNullable_signature, ← hsig, t.isNullable_signature, ht]
      obtain ⟨hsu, hsus⟩ := List.append_subset.mp hs
      refine ⟨le_of_signature_eq hw.1 hsig hsu fun hu' => ?_,
        allLe_of_signatures hw.2 hts hrest hsus⟩
      rw [hu] at hu'
      cases hu'

end

namespace Schema.WellFormed
variable {a : Schema}

/-- A well-formed schema is below itself. -/
theorem le_refl (ha : a.WellFormed k) : a ≤ a :=
  le_of_signature_eq ha rfl (List.Subset.refl _) id

/-- Admitting null makes a schema wider. -/
theorem le_makeOptional (ha : a.WellFormed k) : a ≤ a.makeOptional := by
  refine le_of_signature_eq ha rfl ?_ fun _ => isNullable_makeOptional a
  cases a <;> exact List.Subset.refl _

end Schema.WellFormed

/-- What is nullable and wider than a schema is wider than the schema with null admitted. -/
theorem Schema.makeOptional_le {a c : Schema} (h : a ≤ c) (hc : c.isNullable = true) :
    a.makeOptional ≤ c := by
  cases a with
  | null | optional _ => exact h
  | _ => exact ⟨hc, h⟩

end

/-! ### Transitivity -/

theorem SameOrTop.trans {α : Type} {top p q r : α} (hpq : SameOrTop top p q)
    (hqr : SameOrTop top q r) : SameOrTop top p r := by
  rcases hqr with rfl | rfl
  · exact hpq
  · exact .inr rfl

/-- The order on arrays is transitive if it is so on their items. -/
theorem ArrayPart.le_trans {p q r : ArrayPart} (hpq : p.Le q) (hqr : q.Le r)
    (ih : p.element ≤ q.element → q.element ≤ r.element → p.element ≤ r.element) : p.Le r := by
  rcases hpq with hp | ⟨hq, hpq⟩
  · exact .inl hp
  · rcases hqr with hq' | ⟨hr, hqr⟩
    · rw [hq] at hq'
      cases hq'
    · exact .inr ⟨hr, ih hpq hqr⟩

/-- A field of each of two objects that are below each other, in the direction of the order. -/
theorem ObjectPart.Le.optional_of_name_eq {p q : ObjectPart} (h : p.Le q)
    (hq : (q.fields.map Field.name).Nodup) {f g : Field Schema} (hf : f ∈ p.fields)
    (hg : g ∈ q.fields) (hn : g.name = f.name) :
    f.type ≤ g.type ∧ (f.optional = true → g.optional = true) := by
  obtain ⟨g', hg', hn', hle⟩ := h.1 f hf
  rwa [List.inj_on_of_nodup_map hq hg' hg (hn'.trans hn.symm)] at hle

theorem ObjectPart.le_trans {p q r : ObjectPart} (hr : (r.fields.map Field.name).Nodup)
    (hpq : p.Le q) (hqr : q.Le r)
    (ih : ∀ f ∈ p.fields, ∀ g ∈ q.fields, ∀ h ∈ r.fields, f.type ≤ g.type → g.type ≤ h.type →
      f.type ≤ h.type) : p.Le r := by
  refine ⟨fun f hf => ?_, fun h hh hn => ?_⟩
  · obtain ⟨g, hg, hgn, hfg, hfgo⟩ := hpq.1 f hf
    obtain ⟨h, hh, hhn, hgh, hgho⟩ := hqr.1 g hg
    exact ⟨h, hh, hhn.trans hgn, ih f hf g hg h hh hfg hgh, hgho ∘ hfgo⟩
  · by_cases hq : h.name ∈ q.fields.map Field.name
    -- a field that only the outer object lacks is optional in the middle one already
    · obtain ⟨g, hg, hgn⟩ := List.mem_map.mp hq
      have hgo : g.optional = true := hpq.2 g hg (hgn ▸ hn)
      exact (hqr.optional_of_name_eq hr hg hh hgn.symm).2 hgo
    · exact hqr.2 h hh hq

/-! ### Antisymmetry -/

theorem SameOrTop.antisymm {α : Type} {top p q : α} (hpq : SameOrTop top p q)
    (hqp : SameOrTop top q p) : p = q := by
  rcases hpq with rfl | rfl
  · rfl
  · exact hqp.elim Eq.symm id

/-- A placeholder for empty arrays is below a schema of other arrays, and not the other way round. -/
theorem ArrayPart.le_antisymm {p q : ArrayPart} (hp : p.empty = true → p.element = .null)
    (hq : q.empty = true → q.element = .null) (hpq : p.Le q) (hqp : q.Le p)
    (ih : p.element ≤ q.element → q.element ≤ p.element →
      p.element.signature = q.element.signature) :
    p.toSchema.signature = q.toSchema.signature := by
  rw [toSchema, toSchema, Schema.signature, Schema.signature]
  rcases hpq with hpe | ⟨hqe, hpq⟩
  · rcases hqp with hqe | ⟨hpe', -⟩
    · rw [hp hpe, hq hqe, hpe, hqe]
    · rw [hpe] at hpe'
      cases hpe'
  · rcases hqp with hqe' | ⟨hpe, hqp⟩
    · rw [hqe] at hqe'
      cases hqe'
    · rw [ih hpq hqp, hpe, hqe]

/-- Every field of an object has one that is structurally equal to it in an object above and below. -/
theorem ObjectPart.Le.exists_equal {p q : ObjectPart} (hp : (p.fields.map Field.name).Nodup)
    (hpq : p.Le q) (hqp : q.Le p) {f : Field Schema} (hf : f ∈ p.fields) :
    ∃ g ∈ q.fields, g.name = f.name ∧ f.type ≤ g.type ∧ g.type ≤ f.type ∧
      g.optional = f.optional := by
  obtain ⟨g, hg, hn, hle, ho⟩ := hpq.1 f hf
  obtain ⟨hle', ho'⟩ := hqp.optional_of_name_eq hp hg hf hn.symm
  exact ⟨g, hg, hn, hle, hle', Bool.eq_iff_iff.mpr ⟨ho', ho⟩⟩

theorem ObjectPart.le_antisymm {p q : ObjectPart} (hp : (p.fields.map Field.name).Nodup)
    (hq : (q.fields.map Field.name).Nodup) (hpq : p.Le q) (hqp : q.Le p)
    (ih : ∀ f ∈ p.fields, ∀ g ∈ q.fields, f.type ≤ g.type → g.type ≤ f.type →
      f.type.signature = g.type.signature) :
    p.toSchema.signature = q.toSchema.signature := by
  refine signature_object_eq hp hq fun x => ?_
  rw [fieldSignatures_eq_map, fieldSignatures_eq_map, List.mem_map, List.mem_map]
  constructor
  · rintro ⟨f, hf, rfl⟩
    obtain ⟨g, hg, hn, hle, hge, ho⟩ := hpq.exists_equal hp hqp hf
    exact ⟨g, hg, by rw [hn, ho, ih f hf g hg hle hge]⟩
  · rintro ⟨g, hg, rfl⟩
    obtain ⟨f, hf, hn, hge, hle, ho⟩ := hqp.exists_equal hq hpq hg
    exact ⟨f, hf, by rw [hn, ho, ih f hf g hg hle hge]⟩

/-- Two values that may be missing and are below each other are equal, or as good as equal. -/
theorem Below.antisymm {α β : Type} {R : α → α → Prop} {f : α → β} {x y : Option α}
    (hxy : Below R x y) (hyx : Below R y x)
    (h : ∀ a b, x = some a → y = some b → R a b → R b a → f a = f b) : x.map f = y.map f := by
  cases hx : x with
  | none =>
      cases hy : y with
      | none => rfl
      | some b =>
          obtain ⟨a, ha, -⟩ := hyx b hy
          rw [hx] at ha
          cases ha
  | some a =>
      obtain ⟨b, hb, hab⟩ := hxy a hx
      obtain ⟨a', ha', hba⟩ := hyx b hb
      rw [hx] at ha'
      cases ha'
      rw [hb, Option.map_some, Option.map_some, h a b hx hb hab hba]

theorem Parts.signatures_toList (p : Parts) : signatures p.toList =
    (if p.bool then [.leaf .bool] else []) ++
      (p.number.map fun n => n.toSchema.signature).toList ++
      (p.string.map fun s => s.toSchema.signature).toList ++
      (p.array.map fun a => a.toSchema.signature).toList ++
      (p.object.map fun o => o.toSchema.signature).toList := by
  rw [signatures_eq_map, map_toList]
  rfl

/-! ### The order on schemas -/

namespace Schema.WellFormed
variable {k : Conditions} {a b c : Schema}

theorem le_trans (hk : ∀ p, k.object p → (p.fields.map Field.name).Nodup) (ha : a.WellFormed k)
    (hb : b.WellFormed k) (hc : c.WellFormed k) (hab : a ≤ b) (hbc : b ≤ c) : a ≤ c := by
  induction a using Schema.inductionOnParts generalizing b c with
  | step a ihe ihf =>
      obtain ⟨hnab, hpab⟩ := (ha.le_iff hb).mp hab
      obtain ⟨hnbc, hpbc⟩ := (hb.le_iff hc).mp hbc
      refine (ha.le_iff hc).mpr ⟨hnbc ∘ hnab, hpbc.bool ∘ hpab.bool, ?_, ?_, ?_, ?_⟩
      · exact hpab.number.trans hpbc.number fun _ _ _ _ _ _ => SameOrTop.trans
      · exact hpab.string.trans hpbc.string fun _ _ _ _ _ _ => SameOrTop.trans
      · refine hpab.array.trans hpbc.array fun p q r hp hq hr hpq hqr => ?_
        refine ArrayPart.le_trans hpq hqr ?_
        exact ihe p hp (ha.parts.array hp).2 (hb.parts.array hq).2 (hc.parts.array hr).2
      · refine hpab.object.trans hpbc.object fun p q r hp hq hr hpq hqr => ?_
        have hpw := ha.parts.object hp
        have hqw := hb.parts.object hq
        have hrw := hc.parts.object hr
        refine ObjectPart.le_trans (hk r hrw.1) hpq hqr fun f hf g hg h hh => ?_
        exact ihf p hp f hf (fieldsWellFormed_iff.mp hpw.2 f hf)
          (fieldsWellFormed_iff.mp hqw.2 g hg) (fieldsWellFormed_iff.mp hrw.2 h hh)

section
variable {object : ObjectPart → Prop}
  {of_merge : ∀ {p q}, object p → object q → object (p.merge q)}
  (hobj : ∀ p, object p → (p.fields.map Field.name).Nodup)
include hobj

/-- **Well-formed schemas below each other have the same signature.** -/
theorem signature_eq_of_le (ha : a.WellFormed (.canonical object of_merge))
    (hc : c.WellFormed (.canonical object of_merge)) (hac : a ≤ c) (hca : c ≤ a) :
    a.signature = c.signature := by
  induction a using Schema.inductionOnParts generalizing c with
  | step a ihe ihf =>
      obtain ⟨hnac, hpac⟩ := (ha.le_iff hc).mp hac
      obtain ⟨hnca, hpca⟩ := (hc.le_iff ha).mp hca
      have hnull : a.isNullable = c.isNullable := Bool.eq_iff_iff.mpr ⟨hnac, hnca⟩
      have hbool : a.parts.bool = c.parts.bool := Bool.eq_iff_iff.mpr ⟨hpac.bool, hpca.bool⟩
      have hnumber : a.parts.number.map (fun n => n.toSchema.signature) =
          c.parts.number.map fun n => n.toSchema.signature :=
        hpac.number.antisymm hpca.number fun _ _ _ _ hpq hqp => by
          rw [SameOrTop.antisymm hpq hqp]
      have hstring : a.parts.string.map (fun s => s.toSchema.signature) =
          c.parts.string.map fun s => s.toSchema.signature :=
        hpac.string.antisymm hpca.string fun _ _ _ _ hpq hqp => by
          rw [SameOrTop.antisymm hpq hqp]
      have harray : a.parts.array.map (fun p => p.toSchema.signature) =
          c.parts.array.map fun p => p.toSchema.signature := by
        refine hpac.array.antisymm hpca.array fun p q hp hq hpq hqp => ?_
        have hpw := ha.parts.array hp
        have hqw := hc.parts.array hq
        exact ArrayPart.le_antisymm hpw.1 hqw.1 hpq hqp (ihe p hp hpw.2 hqw.2)
      have hobject : a.parts.object.map (fun p => p.toSchema.signature) =
          c.parts.object.map fun p => p.toSchema.signature := by
        refine hpac.object.antisymm hpca.object fun p q hp hq hpq hqp => ?_
        have hpw := ha.parts.object hp
        have hqw := hc.parts.object hq
        refine ObjectPart.le_antisymm (hobj p hpw.1) (hobj q hqw.1) hpq hqp fun f hf g hg => ?_
        exact ihf p hp f hf (fieldsWellFormed_iff.mp hpw.2 f hf) (fieldsWellFormed_iff.mp hqw.2 g hg)
      rw [← ha.assemble_parts, ← hc.assemble_parts, hnull, Parts.assemble_eq_choice,
        Parts.assemble_eq_choice]
      refine signature_choice ?_
      rw [Parts.signatures_toList, Parts.signatures_toList, hbool, hnumber, hstring, harray,
        hobject]

/-- **Schemas in canonical form are below each other exactly when they are structurally equal.** -/
theorem le_antisymm_iff (ha : a.WellFormed (.canonical object of_merge))
    (hc : c.WellFormed (.canonical object of_merge)) :
    a ≤ c ∧ c ≤ a ↔ a.signature = c.signature := by
  constructor
  · rintro ⟨hac, hca⟩
    exact ha.signature_eq_of_le hobj hc hac hca
  · intro h
    exact ⟨le_of_signature_eq ha h (List.Subset.refl _) id,
      le_of_signature_eq hc h.symm (List.Subset.refl _) id⟩

end

end Schema.WellFormed

end SampleSchema
