import SampleSchema.Proofs.WideningOrder

/-!
# Merging is the least upper bound

The merge of two well-formed schemas is wider than both, and below every schema that is wider than
both (`merge_isLeast`): merging widens as far as the two schemas force it to and no further.

An upper bound has to be one bucket by bucket, and so has a least one.  In the bucket of objects the
counts of the fields come in: a field that the merge has from one side only is seen less often than
there are objects, so it is optional, and every schema that is wider than both sides has to make it
optional too.
-/

namespace SampleSchema

/-! ### Values that may be missing -/

namespace Below
variable {α : Type} {R : α → α → Prop} {op : α → α → α} {x y z : Option α}

/-- What merging keeps of a part on the left is at least that part. -/
theorem merge_left (hrefl : ∀ a, x = some a → R a a)
    (h : ∀ a b, x = some a → y = some b → R a (op a b)) : Below R x (Option.merge op x y) := by
  intro a ha
  cases hb : y with
  | none => exact ⟨a, by rw [ha, Option.merge_none_right], hrefl a ha⟩
  | some b => exact ⟨op a b, by rw [ha, Option.merge_some_some], h a b ha hb⟩

/-- What merging keeps of a part on the right is at least that part. -/
theorem merge_right (hrefl : ∀ b, y = some b → R b b)
    (h : ∀ a b, x = some a → y = some b → R b (op a b)) : Below R y (Option.merge op x y) := by
  intro b hb
  cases ha : x with
  | none => exact ⟨b, by rw [hb, Option.merge_none_left], hrefl b hb⟩
  | some a => exact ⟨op a b, by rw [hb, Option.merge_some_some], h a b ha hb⟩

/-- What merging keeps of two parts is at most what both of them are at most. -/
theorem merge_least (hxz : Below R x z) (hyz : Below R y z)
    (h : ∀ a b c, x = some a → y = some b → z = some c → R a c → R b c → R (op a b) c) :
    Below R (Option.merge op x y) z := by
  intro d hd
  rcases Option.merge_eq_some_iff.mp hd with ⟨hx, -⟩ | ⟨-, hy⟩ | ⟨a, b, hx, hy, rfl⟩
  · exact hxz d hx
  · exact hyz d hy
  · obtain ⟨c, hz, hac⟩ := hxz a hx
    obtain ⟨c', hz', hbc⟩ := hyz b hy
    rw [hz] at hz'
    cases hz'
    exact ⟨c, hz, h a b c hx hy hz hac hbc⟩

end Below

/-! ### Numbers, texts and arrays -/

/-- The operation that gives the top value for two that differ. -/
def orTop {α : Type} [DecidableEq α] (top p q : α) : α := if p = q then p else top

/-- Number parts merge to themselves or to floats. -/
theorem NumberPart.merge_eq_orTop (p q : NumberPart) : p.merge q = orTop .float p q := by
  cases p <;> cases q <;> rfl

/-- String parts merge to themselves or to plain texts. -/
theorem StringPart.merge_eq_orTop (p q : StringPart) : p.merge q = orTop .plain p q := by
  cases p <;> cases q <;> rfl

section
variable {α : Type} [DecidableEq α] {top p q r : α}

theorem sameOrTop_left : SameOrTop top p (orTop top p q) := by
  rw [orTop]
  split
  · exact .inl rfl
  · exact .inr rfl

theorem sameOrTop_right : SameOrTop top q (orTop top p q) := by
  rw [orTop]
  split
  · exact .inl (Eq.symm ‹_›)
  · exact .inr rfl

/-- The top value is needed only where two values differ. -/
theorem orTop_least (hp : SameOrTop top p r) (hq : SameOrTop top q r) :
    SameOrTop top (orTop top p q) r := by
  rw [orTop]
  split
  · exact hp
  · rename_i hne
    rcases hp with rfl | rfl
    · exact .inr (hq.resolve_left fun e => hne e.symm)
    · exact .inr rfl

end

namespace ArrayPart
variable {p q r : ArrayPart}

theorem le_refl (h : p.element ≤ p.element) : p.Le p := by
  cases he : p.empty
  · exact .inr ⟨he, h⟩
  · exact .inl he

/-- The merge of two parts is at least the first, if it is so inside of them. -/
theorem le_merge_left (hp : p.element ≤ p.element)
    (ih : p.element ≤ p.element.merge q.element) : p.Le (p.merge q) := by
  rw [merge]
  split
  · rename_i he
    exact .inl he
  split
  · exact le_refl hp
  · exact .inr ⟨rfl, ih⟩

/-- The merge of two parts is at least the second, if it is so inside of them. -/
theorem le_merge_right (hq : q.element ≤ q.element)
    (ih : q.element ≤ p.element.merge q.element) : q.Le (p.merge q) := by
  rw [merge]
  split
  · exact le_refl hq
  split
  · rename_i he
    exact .inl he
  · exact .inr ⟨rfl, ih⟩

/-- The merge of two parts is at most what both are at most, if it is so inside of them. -/
theorem merge_le (hp : p.Le r) (hq : q.Le r)
    (ih : p.element ≤ r.element → q.element ≤ r.element → p.element.merge q.element ≤ r.element) :
    (p.merge q).Le r := by
  rw [merge]
  split
  · exact hq
  split
  · exact hp
  · rename_i hpe hqe
    obtain ⟨hre, hpr⟩ := hp.resolve_left hpe
    obtain ⟨-, hqr⟩ := hq.resolve_left hqe
    exact .inr ⟨hre, ih hpr hqr⟩

end ArrayPart

/-! ### Objects -/

/-- The type of a field is at most what its values are, if that may be null where the field is
missing. -/
theorem ofCounts_type_le {t c : Schema} {name : String} {observed total : Int} (h : t ≤ c)
    (hc : observed < total → c.isNullable = true) :
    (Field.ofCounts name t observed total).type ≤ c := by
  rw [Field.ofCounts_type]
  split
  · rename_i hlt
    exact Schema.makeOptional_le h (hc hlt)
  · exact h

section
variable {k : Conditions} (hk : ∀ {p : ObjectPart}, k.object p → p.Tallied)
include hk

/-- The type of a field is at least that of the values seen under it. -/
theorem le_ofCounts_type {a t : Schema} {name : String} {observed total : Int}
    (ha : a.WellFormed k) (ht : t.WellFormed k) (h : a ≤ t) :
    a ≤ (Field.ofCounts name t observed total).type := by
  rw [Field.ofCounts_type]
  split
  · exact ha.le_trans (fun _ hp => (hk hp).nodup_names) ht ht.makeOptional h ht.le_makeOptional
  · exact h

namespace ObjectPart
variable {p q : ObjectPart}

omit hk in
theorem le_refl (hp : p.toSchema.WellFormed k) : p.Le p :=
  ⟨fun f hf => ⟨f, hf, rfl, (fieldsWellFormed_iff.mp hp.2 f hf).le_refl, id⟩,
    fun _ hg hn => absurd (List.mem_map_of_mem hg) hn⟩

/-- Objects are below others that have each of their fields with a wider type, seen in other objects
at most as often as there are such, and no further fields but optional ones. -/
theorem le_of_counts {r : ObjectPart} (total : Int) (hp : p.toSchema.WellFormed k)
    (hfields : ∀ f ∈ p.fields, ∃ t observed, Field.ofCounts f.name t observed total ∈ r.fields ∧
      t.WellFormed k ∧ f.type ≤ t ∧ observed - f.observed ≤ total - p.samples)
    (hothers : ∀ h ∈ r.fields, h.name ∉ p.fields.map Field.name → h.optional = true) : p.Le r := by
  have hpt : p.Tallied := hk hp.1
  refine ⟨fun f hf => ?_, hothers⟩
  obtain ⟨t, observed, hmem, ht, hle, hcount⟩ := hfields f hf
  refine ⟨_, hmem, Field.ofCounts_name .., ?_, fun hopt => ?_⟩
  · exact le_ofCounts_type hk (fieldsWellFormed_iff.mp hp.2 f hf) ht hle
  · have hlt : f.observed < p.samples := (hpt.observed_lt_samples hf).mp hopt
    rw [Field.ofCounts_optional, decide_eq_true_eq]
    omega

theorem le_merge_left (hp : p.toSchema.WellFormed k) (hq : q.toSchema.WellFormed k)
    (ih : ∀ f ∈ p.fields, ∀ t : Schema, t.WellFormed k → f.type ≤ f.type.merge t) :
    p.Le (p.merge q) := by
  have hpw := fieldsWellFormed_iff.mp hp.2
  have hqw := fieldsWellFormed_iff.mp hq.2
  have hqt : q.Tallied := hk hq.1
  have hps : 1 ≤ p.samples := (hk hp.1).one_le_samples
  have hqs : 1 ≤ q.samples := hqt.one_le_samples
  have hgo : ∀ g ∈ q.fields, g.observed ≤ q.samples := fun _ => hqt.observed_le_samples
  refine le_of_counts hk (p.samples + q.samples) hp (fun f hf => ?_) fun h hh hn => ?_
  · rcases exists_or_forall_ne q.fields f.name with ⟨g, hg, hgn⟩ | hnone
    · have := hgo g hg
      exact ⟨_, _, (MergedField.both hf hg hgn).mem hqt.nodup_names, (hpw f hf).merge (hqw g hg),
        ih f hf _ (hqw g hg), by omega⟩
    · exact ⟨_, _, (MergedField.left hf hnone).mem hqt.nodup_names, hpw f hf,
        (hpw f hf).le_refl, by omega⟩
  -- fields that only the objects on the right have are missing on the left, and so optional
  · cases mergedField_of_mem hh with
    | both hf _ _ | left hf _ => exact absurd (by simpa using List.mem_map_of_mem hf) hn
    | @right g hg _ =>
        have := hgo g hg
        rw [Field.ofCounts_optional, decide_eq_true_eq]
        omega

theorem le_merge_right (hp : p.toSchema.WellFormed k) (hq : q.toSchema.WellFormed k)
    (ih : ∀ f ∈ p.fields, ∀ t : Schema, t.WellFormed k → t ≤ f.type.merge t) :
    q.Le (p.merge q) := by
  have hpw := fieldsWellFormed_iff.mp hp.2
  have hqw := fieldsWellFormed_iff.mp hq.2
  have hqt : q.Tallied := hk hq.1
  have hps : 1 ≤ p.samples := (hk hp.1).one_le_samples
  have hqs : 1 ≤ q.samples := hqt.one_le_samples
  have hfo : ∀ f ∈ p.fields, f.observed ≤ p.samples := fun _ => (hk hp.1).observed_le_samples
  refine le_of_counts hk (p.samples + q.samples) hq (fun g hg => ?_) fun h hh hn => ?_
  · rcases exists_or_forall_ne p.fields g.name with ⟨f, hf, hfn⟩ | hnone
    · have := hfo f hf
      exact ⟨_, _, hfn ▸ (MergedField.both hf hg hfn.symm).mem hqt.nodup_names,
        (hpw f hf).merge (hqw g hg), ih f hf _ (hqw g hg), by omega⟩
    · exact ⟨_, _, (MergedField.right hg hnone).mem hqt.nodup_names, hqw g hg,
        (hqw g hg).le_refl, by omega⟩
  · cases mergedField_of_mem hh with
    | both _ hg e => exact absurd (by simpa [← e] using List.mem_map_of_mem hg) hn
    | right hg _ => exact absurd (by simpa using List.mem_map_of_mem hg) hn
    | @left f hf _ =>
        have := hfo f hf
        rw [Field.ofCounts_optional, decide_eq_true_eq]
        omega

end ObjectPart

end

/-- Merged objects are at most what both are at most, if it is so field by field. -/
theorem ObjectPart.merge_le {p q r : ObjectPart} (hp : p.Tallied) (hq : q.Tallied) (hr : r.Tallied)
    (hpr : p.Le r) (hqr : q.Le r)
    (ih : ∀ f ∈ p.fields, ∀ g ∈ q.fields, ∀ h ∈ r.fields, f.type ≤ h.type → g.type ≤ h.type →
      f.type.merge g.type ≤ h.type) : (p.merge q).Le r := by
  refine ⟨fun h hh => ?_, fun h hh hn => ?_⟩
  · cases mergedField_of_mem hh with
    | @both f g hf hg e =>
        obtain ⟨h, hh, hn, hfh, hfo⟩ := hpr.1 f hf
        obtain ⟨hgh, hgo⟩ := hqr.optional_of_name_eq hr.nodup_names hg hh (hn.trans e.symm)
        -- a merged field is optional only when one of the two fields is
        have hopt : f.observed + g.observed < p.samples + q.samples → h.optional = true := by
          intro hlt
          by_cases hf' : f.observed < p.samples
          · exact hfo ((hp.observed_lt_samples hf).mpr hf')
          · exact hgo ((hq.observed_lt_samples hg).mpr (by omega))
        refine ⟨h, hh, by rw [hn, Field.ofCounts_name], ?_, ?_⟩
        · exact ofCounts_type_le (ih f hf g hg h hh hfh hgh) (hr.isNullable h hh ∘ hopt)
        · rw [Field.ofCounts_optional, decide_eq_true_eq]
          exact hopt
    | @left f hf hnone =>
        obtain ⟨h, hh, hn, hfh, -⟩ := hpr.1 f hf
        have hopt : h.optional = true := hqr.2 h hh fun hm => by
          obtain ⟨g, hg, hgn⟩ := List.mem_map.mp hm
          exact hnone g hg (hgn.trans hn)
        refine ⟨h, hh, by rw [hn, Field.ofCounts_name], ?_, fun _ => hopt⟩
        exact ofCounts_type_le hfh fun _ => hr.isNullable h hh hopt
    | @right g hg hnone =>
        obtain ⟨h, hh, hn, hgh, -⟩ := hqr.1 g hg
        have hopt : h.optional = true := hpr.2 h hh fun hm => by
          obtain ⟨f, hf, hfn⟩ := List.mem_map.mp hm
          exact hnone f hf (hfn.trans hn)
        refine ⟨h, hh, by rw [hn, Field.ofCounts_name], ?_, fun _ => hopt⟩
        exact ofCounts_type_le hgh fun _ => hr.isNullable h hh hopt
  · exact hpr.2 h hh fun hm => hn (mem_names_merge_iff.mpr (.inl hm))

/-! ### Schemas -/

/-- The parts of a merge are the merged parts. -/
theorem Schema.parts_merge (a b : Schema) : (a.merge b).parts = a.parts.merge b.parts := by
  rw [merge_eq, Parts.parts_assemble]

theorem Parts.toList_eq_nil_of_merge {p q : Parts} (h : (p.merge q).toList = []) :
    p.toList = [] := by
  simp only [toList_eq_nil_iff, merge, Bool.or_eq_false_iff, Option.merge_eq_none_iff] at h ⊢
  obtain ⟨⟨hb, -⟩, ⟨hn, -⟩, ⟨hs, -⟩, ⟨ha, -⟩, ho, -⟩ := h
  exact ⟨hb, hn, hs, ha, ho⟩

namespace Schema.WellFormed
variable {k : Conditions} {a b c : Schema}

theorem isNullable_of_toList_parts : ∀ {a : Schema}, a.WellFormed k → a.parts.toList = [] →
    a.isNullable = true
  | .null, _, _ | .optional _, _, _ => rfl
  | .bool, _, h | .int, _, h | .float, _, h | .string false, _, h | .string true, _, h
  | .timestamp, _, h | .array .., _, h | .object .., _, h => by cases h
  | .union ts, ha, h => by
      have hts := k.isChoice ha.1
      obtain ⟨t, ht⟩ := List.exists_mem_of_ne_nil ts hts.1
      have hmem : t ∈ (partsOfAll ts).toList := (hts.mem_toList_iff t).mpr ht
      rw [show (partsOfAll ts).toList = [] from h] at hmem
      cases hmem

theorem isNullable_merge (ha : a.WellFormed k) (b : Schema) :
    (a.merge b).isNullable = (a.isNullable || b.isNullable) := by
  rw [merge_eq, Parts.isNullable_assemble]
  cases h : (a.parts.merge b.parts).toList with
  | nil => simp [ha.isNullable_of_toList_parts (Parts.toList_eq_nil_of_merge h)]
  | cons _ _ => simp

section
variable (hk : ∀ {p : ObjectPart}, k.object p → p.Tallied)
include hk

/-- The merge is wider than the schema on the left. -/
theorem le_merge_left (ha : a.WellFormed k) (hb : b.WellFormed k) : a ≤ a.merge b := by
  induction a using Schema.inductionOnParts generalizing b with
  | step a ihe ihf =>
      refine (ha.le_iff (ha.merge hb)).mpr ⟨fun h => ?_, ?_⟩
      · rw [ha.isNullable_merge, h, Bool.true_or]
      rw [Schema.parts_merge]
      refine ⟨fun h => by rw [Parts.merge, h, Bool.true_or], ?_, ?_, ?_, ?_⟩
      · exact .merge_left (fun _ _ => .inl rfl) fun p q _ _ => p.merge_eq_orTop q ▸ sameOrTop_left
      · exact .merge_left (fun _ _ => .inl rfl) fun p q _ _ => p.merge_eq_orTop q ▸ sameOrTop_left
      · refine .merge_left (fun p hp => ?_) fun p q hp hq => ?_
        · exact ArrayPart.le_refl (ha.parts.array hp).2.le_refl
        · have hpw := (ha.parts.array hp).2
          exact ArrayPart.le_merge_left hpw.le_refl (ihe p hp hpw (hb.parts.array hq).2)
      · refine .merge_left (fun p hp => ?_) fun p q hp hq => ?_
        · exact ObjectPart.le_refl (ha.parts.object hp)
        · have hpw := ha.parts.object hp
          refine ObjectPart.le_merge_left hk hpw (hb.parts.object hq) fun f hf t ht => ?_
          exact ihf p hp f hf (fieldsWellFormed_iff.mp hpw.2 f hf) ht

/-- The merge is wider than the schema on the right. -/
theorem le_merge_right (ha : a.WellFormed k) (hb : b.WellFormed k) : b ≤ a.merge b := by
  induction a using Schema.inductionOnParts generalizing b with
  | step a ihe ihf =>
      refine (hb.le_iff (ha.merge hb)).mpr ⟨fun h => ?_, ?_⟩
      · rw [ha.isNullable_merge, h, Bool.or_true]
      rw [Schema.parts_merge]
      refine ⟨fun h => by rw [Parts.merge, h, Bool.or_true], ?_, ?_, ?_, ?_⟩
      · exact .merge_right (fun _ _ => .inl rfl) fun p q _ _ => p.merge_eq_orTop q ▸ sameOrTop_right
      · exact .merge_right (fun _ _ => .inl rfl) fun p q _ _ => p.merge_eq_orTop q ▸ sameOrTop_right
      · refine .merge_right (fun q hq => ?_) fun p q hp hq => ?_
        · exact ArrayPart.le_refl (hb.parts.array hq).2.le_refl
        · have hqw := (hb.parts.array hq).2
          exact ArrayPart.le_merge_right hqw.le_refl (ihe p hp (ha.parts.array hp).2 hqw)
      · refine .merge_right (fun q hq => ?_) fun p q hp hq => ?_
        · exact ObjectPart.le_refl (hb.parts.object hq)
        · have hpw := ha.parts.object hp
          refine ObjectPart.le_merge_right hk hpw (hb.parts.object hq) fun f hf t ht => ?_
          exact ihf p hp f hf (fieldsWellFormed_iff.mp hpw.2 f hf) ht

/-- The merge is below everything that is wider than both schemas. -/
theorem merge_le (ha : a.WellFormed k) (hb : b.WellFormed k) (hc : c.WellFormed k) (hac : a ≤ c)
    (hbc : b ≤ c) : a.merge b ≤ c := by
  induction a using Schema.inductionOnParts generalizing b c with
  | step a ihe ihf =>
      obtain ⟨hnac, hpac⟩ := (ha.le_iff hc).mp hac
      obtain ⟨hnbc, hpbc⟩ := (hb.le_iff hc).mp hbc
      refine ((ha.merge hb).le_iff hc).mpr ⟨fun h => ?_, ?_⟩
      · rw [ha.isNullable_merge, Bool.or_eq_true] at h
        exact h.elim hnac hnbc
      rw [Schema.parts_merge]
      refine ⟨fun h => ?_, ?_, ?_, ?_, ?_⟩
      · exact ((Bool.or_eq_true _ _).mp h).elim hpac.bool hpbc.bool
      · exact hpac.number.merge_least hpbc.number fun p q r _ _ _ hpr hqr =>
          p.merge_eq_orTop q ▸ orTop_least hpr hqr
      · exact hpac.string.merge_least hpbc.string fun p q r _ _ _ hpr hqr =>
          p.merge_eq_orTop q ▸ orTop_least hpr hqr
      · refine hpac.array.merge_least hpbc.array fun p q r hp hq hr hpr hqr => ?_
        refine ArrayPart.merge_le hpr hqr fun hpr hqr => ?_
        exact ihe p hp (ha.parts.array hp).2 (hb.parts.array hq).2 (hc.parts.array hr).2 hpr hqr
      · refine hpac.object.merge_least hpbc.object fun p q r hp hq hr hpr hqr => ?_
        have hpw := ha.parts.object hp
        have hqw := hb.parts.object hq
        have hrw := hc.parts.object hr
        refine ObjectPart.merge_le (hk hpw.1) (hk hqw.1) (hk hrw.1) hpr hqr
          fun f hf g hg h hh hfh hgh => ?_
        exact ihf p hp f hf (fieldsWellFormed_iff.mp hpw.2 f hf)
          (fieldsWellFormed_iff.mp hqw.2 g hg) (fieldsWellFormed_iff.mp hrw.2 h hh) hfh hgh

end

end Schema.WellFormed

/-- Schemas in canonical form whose objects are tallied. -/
abbrev Conditions.canonicallyTallied : Conditions :=
  .canonical ObjectPart.Tallied ObjectPart.Tallied.merge

/-- **The merge is the least upper bound of the widening order** on schemas whose objects are
tallied.  In canonical form it is the only one up to structure, and a schema is below another
exactly when merging it in leaves the structure of the other as it is. -/
theorem merge_isLeast :
    (∀ a b : Schema, a.WellFormed .tallied → b.WellFormed .tallied →
      (a.merge b).WellFormed .tallied ∧ a ≤ a.merge b ∧ b ≤ a.merge b ∧
        ∀ c : Schema, c.WellFormed .tallied → a ≤ c → b ≤ c → a.merge b ≤ c) ∧
    ∀ a b : Schema, a.WellFormed .canonicallyTallied → b.WellFormed .canonicallyTallied →
      (a.merge b).WellFormed .canonicallyTallied ∧ a ≤ a.merge b ∧ b ≤ a.merge b ∧
        (∀ c : Schema, c.WellFormed .canonicallyTallied → a ≤ c → b ≤ c →
          a.merge b ≤ c ∧
            ((∀ d : Schema, d.WellFormed .canonicallyTallied → a ≤ d → b ≤ d → c ≤ d) →
              c.signature = (a.merge b).signature)) ∧
        (a ≤ b ↔ (a.merge b).signature = b.signature) := by
  refine ⟨fun a b ha hb => ?_, fun a b ha hb => ?_⟩
  · exact ⟨ha.merge hb, ha.le_merge_left id hb, ha.le_merge_right id hb,
      fun c hc => ha.merge_le id hb hc⟩
  have hnodup : ∀ p : ObjectPart, p.Tallied → (p.fields.map Field.name).Nodup :=
    fun _ hp => hp.nodup_names
  have hm := ha.merge hb
  have hleft : a ≤ a.merge b := ha.le_merge_left id hb
  have hright : b ≤ a.merge b := ha.le_merge_right id hb
  refine ⟨hm, hleft, hright, fun c hc hac hbc => ⟨ha.merge_le id hb hc hac hbc, fun hleast => ?_⟩,
    fun hab => ?_, fun hsig => ?_⟩
  · exact (hc.le_antisymm_iff hnodup hm).mp
      ⟨hleast _ hm hleft hright, ha.merge_le id hb hc hac hbc⟩
  · exact (hm.le_antisymm_iff hnodup hb).mp ⟨ha.merge_le id hb hb hab hb.le_refl, hright⟩
  · exact ha.le_trans hnodup hm hb hleft ((hm.le_antisymm_iff hnodup hb).mpr hsig).1

/-- A union with its variants out of order, and objects with a field that one of them lacks. -/
theorem merge_isLeast_of_mixed :
    (Schema.union [.string false, .int]).merge .float ≤ .union [.string false, .float] ∧
      (Schema.object none 2 [⟨"id", .int, false, 2, 2⟩]).merge
          (.object none 1 [⟨"id", .null, false, 1, 1⟩, ⟨"tags", .array .null true, false, 1, 1⟩]) ≤
        .object none 9 [⟨"tags", .optional (.array .bool false), true, 3, 9⟩,
          ⟨"id", .optional .float, false, 9, 9⟩] := by
  have hunion : ∀ n : NumberPart, (Schema.union [.string false, n.toSchema]).WellFormed .tallied :=
    fun n => by
      cases n <;>
        exact ⟨⟨List.cons_ne_nil _ _, [.string, .number], by decide, rfl⟩, trivial, trivial, trivial⟩
  have hleft : (Schema.object none 2 [⟨"id", .int, false, 2, 2⟩]).WellFormed .canonicallyTallied :=
    ⟨⟨by decide, by decide, by decide, by decide, by decide, by decide⟩, trivial, trivial⟩
  have hright : (Schema.object none 1 [⟨"id", .null, false, 1, 1⟩,
      ⟨"tags", .array .null true, false, 1, 1⟩]).WellFormed .canonicallyTallied :=
    ⟨⟨by decide, by decide, by decide, by decide, by decide, by decide⟩, trivial,
      ⟨fun _ => rfl, trivial⟩, trivial⟩
  have hbound : (Schema.object none 9 [⟨"tags", .optional (.array .bool false), true, 3, 9⟩,
      ⟨"id", .optional .float, false, 9, 9⟩]).WellFormed .canonicallyTallied :=
    ⟨⟨by decide, by decide, by decide, by decide, by decide, by decide⟩,
      ⟨rfl, Bool.false_ne_true.elim, trivial⟩, ⟨rfl, trivial⟩, trivial⟩
  constructor
  · refine (merge_isLeast.1 _ .float (hunion .int) trivial).2.2.2 _ (hunion .float) ?_ ?_
    · exact ⟨.head _, .inr (.tail _ (.head _)), trivial⟩
    · exact .tail _ (.head _)
  · refine ((merge_isLeast.2 _ _ hleft hright).2.2.2.1 _ hbound ?_ ?_).1
    · exact ⟨none, 9, _, .head _,
        ⟨⟨_, .tail _ (.head _), rfl, .inr (.head _), Bool.false_ne_true.elim⟩, trivial⟩, by decide⟩
    · exact ⟨none, 9, _, .head _,
        ⟨⟨_, .tail _ (.head _), rfl, rfl, Bool.false_ne_true.elim⟩,
          ⟨_, .head _, rfl, ⟨_, _, .head _⟩, Bool.false_ne_true.elim⟩, trivial⟩, by decide⟩

end SampleSchema
