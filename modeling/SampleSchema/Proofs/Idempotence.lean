import SampleSchema.Proofs.MergeRecords

/-!
# Merging what has been seen before

Merging a schema with a structurally equal one changes nothing but its counters: those that belong
together are added up (`Schema.addCounts`), the fields stay in the order that they have on the left,
and no conflict is recorded (`merge_eq_addCounts_of_reachable`).  Merging a schema with itself doubles
its counters.

Structurally equal schemas are below each other in the widening order, so in every bucket the parts
on both sides are equal or hold again schemas that are below each other.  A field of the merge is
optional when it was optional on either side, since counts add up.
-/

namespace SampleSchema

/-! ### Schemas with other counters -/

section
variable (c : Int → Int)

mutual

/-- A schema with every counter replaced. -/
def Schema.mapCounts : Schema → Schema
  | .array e empty => .array e.mapCounts empty
  | .object n k fs => .object n (c k) (mapFieldCounts fs)
  | .optional t    => .optional t.mapCounts
  | .union ts      => .union (mapAllCounts ts)
  | t              => t

/-- Fields with other counters. -/
def mapFieldCounts : List (Field Schema) → List (Field Schema)
  | [] => []
  | ⟨name, type, optional, observed, total⟩ :: fs =>
    ⟨name, type.mapCounts, optional, c observed, c total⟩ :: mapFieldCounts fs

/-- Several schemas with other counters. -/
def mapAllCounts : List Schema → List Schema
  | []      => []
  | t :: ts => t.mapCounts :: mapAllCounts ts

end

end

mutual

/-- A schema with the counters of a second one of the same structure added.  The counters of a field
are added to those of the field of its name. -/
def Schema.addCounts : Schema → Schema → Schema
  | .array e empty, .array f _    => .array (e.addCounts f) empty
  | .object n k fs, .object _ l gs => .object n (k + l) (addFieldCounts fs gs)
  | .optional t, .optional u      => .optional (t.addCounts u)
  | .union ts, .union us          => .union (addAllCounts ts us)
  | t, _                          => t

/-- Fields with the counters of both sides. -/
def addFieldCounts : List (Field Schema) → List (Field Schema) → List (Field Schema)
  | [], _ => []
  | ⟨name, type, optional, observed, total⟩ :: fs, gs =>
    (match lastField? gs name with
      | some g =>
        ⟨name, type.addCounts g.type, optional, observed + g.observed, total + g.total⟩
      | none => ⟨name, type, optional, observed, total⟩) :: addFieldCounts fs gs

/-- Several schemas with the counters of both sides. -/
def addAllCounts : List Schema → List Schema → List Schema
  | t :: ts, u :: us => t.addCounts u :: addAllCounts ts us
  | ts, _            => ts

end

mutual

/-- The structure of a schema has no counters. -/
theorem Schema.signature_mapCounts (c : Int → Int) : ∀ t : Schema,
    (t.mapCounts c).signature = t.signature
  | .null | .bool | .int | .float | .string _ | .timestamp => rfl
  | .array e _ => by
      rw [Schema.mapCounts, Schema.signature, Schema.signature, e.signature_mapCounts c]
  | .object _ _ fs => by
      rw [Schema.mapCounts, Schema.signature, Schema.signature,
        fieldSignatures_mapFieldCounts c fs]
  | .optional t => by
      rw [Schema.mapCounts, Schema.signature, Schema.signature, t.signature_mapCounts c]
  | .union ts => by
      rw [Schema.mapCounts, Schema.signature, Schema.signature, signatures_mapAllCounts c ts]

/-- Other counters do not change the structure of fields. -/
theorem fieldSignatures_mapFieldCounts (c : Int → Int) : ∀ fs : List (Field Schema),
    fieldSignatures (mapFieldCounts c fs) = fieldSignatures fs
  | [] => rfl
  | ⟨_, type, _, _, _⟩ :: fs => by
      rw [mapFieldCounts, fieldSignatures, fieldSignatures, type.signature_mapCounts c,
        fieldSignatures_mapFieldCounts c fs]

/-- Other counters do not change the structures of schemas. -/
theorem signatures_mapAllCounts (c : Int → Int) : ∀ ts : List Schema,
    signatures (mapAllCounts c ts) = signatures ts
  | [] => rfl
  | t :: ts => by
      rw [mapAllCounts, signatures, signatures, t.signature_mapCounts c,
        signatures_mapAllCounts c ts]

end

mutual

/-- Adding counters changes nothing else. -/
theorem Schema.mapCounts_addCounts (c : Int) : ∀ t u : Schema,
    (t.addCounts u).mapCounts (fun _ => c) = t.mapCounts fun _ => c
  | .null, _ | .bool, _ | .int, _ | .float, _ | .string _, _ | .timestamp, _ => rfl
  | .array e _, u => by
      cases u with
      | array f _ =>
          rw [Schema.addCounts, Schema.mapCounts, Schema.mapCounts, e.mapCounts_addCounts c f]
      | _ => rfl
  | .object _ _ fs, u => by
      cases u with
      | object _ _ gs =>
          rw [Schema.addCounts, Schema.mapCounts, Schema.mapCounts,
            mapFieldCounts_addFieldCounts c fs gs]
      | _ => rfl
  | .optional t, u => by
      cases u with
      | optional u =>
          rw [Schema.addCounts, Schema.mapCounts, Schema.mapCounts, t.mapCounts_addCounts c u]
      | _ => rfl
  | .union ts, u => by
      cases u with
      | union us =>
          rw [Schema.addCounts, Schema.mapCounts, Schema.mapCounts,
            mapAllCounts_addAllCounts c ts us]
      | _ => rfl

theorem mapFieldCounts_addFieldCounts (c : Int) : ∀ fs gs : List (Field Schema),
    mapFieldCounts (fun _ => c) (addFieldCounts fs gs) = mapFieldCounts (fun _ => c) fs
  | [], _ => by rw [addFieldCounts]
  | ⟨name, type, _, _, _⟩ :: fs, gs => by
      rw [addFieldCounts]
      cases lastField? gs name with
      | none => rw [mapFieldCounts, mapFieldCounts, mapFieldCounts_addFieldCounts c fs gs]
      | some g =>
          rw [mapFieldCounts, mapFieldCounts, type.mapCounts_addCounts c g.type,
            mapFieldCounts_addFieldCounts c fs gs]

theorem mapAllCounts_addAllCounts (c : Int) : ∀ ts us : List Schema,
    mapAllCounts (fun _ => c) (addAllCounts ts us) = mapAllCounts (fun _ => c) ts
  | [], us => by cases us <;> rfl
  | _ :: _, [] => rfl
  | t :: ts, u :: us => by
      rw [addAllCounts, mapAllCounts, mapAllCounts, t.mapCounts_addCounts c u,
        mapAllCounts_addAllCounts c ts us]

end

section
variable {k : Conditions}

mutual

/-- Adding the counters of a schema to itself doubles them. -/
theorem Schema.WellFormed.addCounts_self
    (hk : ∀ p, k.object p → (p.fields.map Field.name).Nodup) : ∀ {t : Schema}, t.WellFormed k →
      t.addCounts t = t.mapCounts (2 * ·)
  | .null, _ | .bool, _ | .int, _ | .float, _ | .string _, _ | .timestamp, _ => rfl
  | .array _ _, h => by
      rw [Schema.addCounts, Schema.mapCounts, Schema.WellFormed.addCounts_self hk h.2]
  | .object _ _ _, h => by
      rw [Schema.addCounts, Schema.mapCounts,
        addFieldCounts_self hk h.2 fun f hf => lastField?_eq_some (hk _ h.1) hf, Int.two_mul]
  | .optional _, h => by
      rw [Schema.addCounts, Schema.mapCounts, Schema.WellFormed.addCounts_self hk h.2]
  | .union _, h => by rw [Schema.addCounts, Schema.mapCounts, addAllCounts_self hk h.2]

/-- A field added to itself is counted twice. -/
theorem addFieldCounts_self (hk : ∀ p, k.object p → (p.fields.map Field.name).Nodup) :
    ∀ {fs gs : List (Field Schema)}, fieldsWellFormed k fs →
      (∀ f ∈ fs, lastField? gs f.name = some f) →
        addFieldCounts fs gs = mapFieldCounts (2 * ·) fs
  | [], _, _, _ => by rw [addFieldCounts, mapFieldCounts]
  | ⟨name, type, optional, observed, total⟩ :: fs, gs, hw, h => by
      obtain ⟨hf, hfs⟩ := List.forall_mem_cons.mp h
      rw [addFieldCounts, show lastField? gs name = _ from hf, mapFieldCounts,
        addFieldCounts_self hk hw.2 hfs, Int.two_mul, Int.two_mul]
      dsimp only
      rw [Schema.WellFormed.addCounts_self hk hw.1]

/-- Schemas added to themselves are counted twice. -/
theorem addAllCounts_self (hk : ∀ p, k.object p → (p.fields.map Field.name).Nodup) :
    ∀ {ts : List Schema}, allWellFormed k ts → addAllCounts ts ts = mapAllCounts (2 * ·) ts
  | [], _ => rfl
  | t :: ts, hw => by
      rw [addAllCounts, mapAllCounts, Schema.WellFormed.addCounts_self hk hw.1,
        addAllCounts_self hk hw.2]

end

end

/-! ### What parts make -/

theorem addAllCounts_append (ts' us' : List Schema) : ∀ {ts us : List Schema},
    ts.length = us.length →
      addAllCounts (ts ++ ts') (us ++ us') = addAllCounts ts us ++ addAllCounts ts' us'
  | [], [], _ => rfl
  | t :: ts, u :: us, h => by
      rw [List.cons_append, List.cons_append, addAllCounts, addAllCounts,
        addAllCounts_append ts' us' (Nat.succ.inj h), List.cons_append]

theorem Schema.addCounts_choice (nullable : Bool) : ∀ {ts us : List Schema},
    ts.length = us.length →
      (Schema.choice nullable ts).addCounts (Schema.choice nullable us) =
        Schema.choice nullable (addAllCounts ts us)
  | [], [], _ => rfl
  | [_], [_], _ | _ :: _ :: _, _ :: _ :: _, _ => by cases nullable <;> rfl

/-- Parts of one bucket that are below each other and can be merged by adding counters. -/
theorem addAllCounts_option {α : Type} {R : α → α → Prop} (f : α → Schema) (op : α → α → α)
    {x y : Option α} (hxy : Below R x y) (hyx : Below R y x)
    (h : ∀ a b, x = some a → y = some b → R a b → R b a → (f a).addCounts (f b) = f (op a b)) :
    (x.map f).toList.length = (y.map f).toList.length ∧
      addAllCounts (x.map f).toList (y.map f).toList = ((Option.merge op x y).map f).toList := by
  cases hx : x with
  | none =>
      cases hy : y with
      | none => exact ⟨rfl, rfl⟩
      | some b =>
          obtain ⟨a, ha, -⟩ := hyx b hy
          cases hx.symm.trans ha
  | some a =>
      obtain ⟨b, hb, hab⟩ := hxy a hx
      obtain ⟨a', ha', hba⟩ := hyx b hb
      cases hx.symm.trans ha'
      rw [hb]
      exact ⟨rfl, congrArg (fun t => [t]) (h a b hx hb hab hba)⟩

/-- Parts that are below each other have their merge in common with what adding counters gives, if
their arrays and objects do. -/
theorem Parts.addAllCounts_toList {p q : Parts} (hpq : p.Le q) (hqp : q.Le p)
    (harray : ∀ a b, p.array = some a → q.array = some b → a.Le b → b.Le a →
      a.toSchema.addCounts b.toSchema = (a.merge b).toSchema)
    (hobject : ∀ a b, p.object = some a → q.object = some b → a.Le b → b.Le a →
      a.toSchema.addCounts b.toSchema = (a.merge b).toSchema) :
    p.toList.length = q.toList.length ∧
      addAllCounts p.toList q.toList = (p.merge q).toList := by
  have hbool : p.bool = q.bool := Bool.eq_iff_iff.mpr ⟨hpq.bool, hqp.bool⟩
  obtain ⟨hnl, hn⟩ := addAllCounts_option NumberPart.toSchema NumberPart.merge
    hpq.number hqp.number fun m n _ _ hmn hnm => by
      rw [SameOrTop.antisymm hmn hnm]
      cases n <;> rfl
  obtain ⟨hsl, hs⟩ := addAllCounts_option StringPart.toSchema StringPart.merge
    hpq.string hqp.string fun s t _ _ hst hts => by
      rw [SameOrTop.antisymm hst hts]
      cases t <;> rfl
  obtain ⟨hal, ha⟩ := addAllCounts_option _ _ hpq.array hqp.array harray
  obtain ⟨hol, ho⟩ := addAllCounts_option _ _ hpq.object hqp.object hobject
  refine ⟨by simp only [toList, List.length_append, hbool, hnl, hsl, hal, hol], ?_⟩
  have hb : addAllCounts (if q.bool then [Schema.bool] else []) (if q.bool then [.bool] else []) =
      if (p.merge q).bool then [.bool] else [] := by
    rw [show (p.merge q).bool = (p.bool || q.bool) from rfl, hbool]
    cases q.bool <;> rfl
  simp only [toList, List.append_assoc, hbool]
  rw [addAllCounts_append _ _ rfl, addAllCounts_append _ _ hnl, addAllCounts_append _ _ hsl,
    addAllCounts_append _ _ hal, hb, hn, hs, ha, ho]
  rfl

/-! ### Merges of structurally equal schemas -/

theorem ArrayPart.addCounts_eq_merge {p q : ArrayPart}
    (hp : p.empty = true → p.element = .null) (hq : q.empty = true → q.element = .null)
    (hpq : p.Le q) (hqp : q.Le p)
    (ih : p.element ≤ q.element → q.element ≤ p.element →
      p.element.merge q.element = p.element.addCounts q.element) :
    p.toSchema.addCounts q.toSchema = (p.merge q).toSchema := by
  rcases hpq with hpe | ⟨hqe, hpq⟩
  · rcases hqp with hqe | ⟨hpe', -⟩
    · rw [toSchema, toSchema, Schema.addCounts, merge, if_pos hpe, hp hpe, hq hqe, toSchema,
        hpe, hqe, hq hqe]
      rfl
    · cases hpe.symm.trans hpe'
  · rcases hqp with hqe' | ⟨hpe, hqp⟩
    · cases hqe.symm.trans hqe'
    · rw [toSchema, toSchema, Schema.addCounts, merge, hpe, hqe, ih hpq hqp]
      rfl

/-- Fields that are merged one by one, if none changes but for its counters. -/
theorem mergeFields_eq_addFieldCounts {total : Int} {gs : List (Field Schema)} :
    ∀ {fs : List (Field Schema)}, (∀ f ∈ fs, ∃ g, lastField? gs f.name = some g ∧
      Field.ofCounts f.name (f.type.merge g.type) (f.observed + g.observed) total =
        ⟨f.name, f.type.addCounts g.type, f.optional, f.observed + g.observed,
          f.total + g.total⟩) →
      mergeFields total gs fs = addFieldCounts fs gs
  | [], _ => by rw [mergeFields, addFieldCounts]
  | ⟨name, type, optional, observed, total'⟩ :: fs, h => by
      obtain ⟨⟨g, hg, hfield⟩, hfs⟩ := List.forall_mem_cons.mp h
      rw [mergeFields, addFieldCounts, show lastField? gs name = _ from hg,
        mergeFields_eq_addFieldCounts hfs]
      exact congrArg (fun f => f :: addFieldCounts fs gs) hfield

theorem newFields_eq_nil {total : Int} {fs gs : List (Field Schema)}
    (h : ∀ g ∈ gs, g.name ∈ fs.map Field.name) : newFields total fs gs = [] := by
  rw [newFields, List.map_eq_nil_iff, List.filter_eq_nil_iff]
  intro g hg
  rw [List.contains_iff_mem.mpr (h g hg)]
  exact Bool.false_ne_true

theorem ObjectPart.addCounts_eq_merge {p q : ObjectPart} (hp : p.Observed) (hq : q.Observed)
    (hpq : p.Le q) (hqp : q.Le p)
    (ih : ∀ f ∈ p.fields, ∀ g ∈ q.fields, f.type ≤ g.type → g.type ≤ f.type →
      f.type.merge g.type = f.type.addCounts g.type)
    (hnull : ∀ f ∈ p.fields, ∀ t : Schema, f.type.isNullable = true →
      (f.type.merge t).isNullable = true) :
    p.toSchema.addCounts q.toSchema = (p.merge q).toSchema := by
  have hfields : mergeFields (p.samples + q.samples) q.fields p.fields =
      addFieldCounts p.fields q.fields := by
    refine mergeFields_eq_addFieldCounts fun f hf => ?_
    obtain ⟨g, hg, hn, hle, hge, ho⟩ := hpq.exists_equal hp.nodup_names hqp hf
    refine ⟨g, hn ▸ lastField?_eq_some hq.nodup_names hg, ?_⟩
    have hfs := hp.toTallied.observed_lt_samples hf
    have hgs := hq.toTallied.observed_lt_samples hg
    have hfle := hp.toTallied.observed_le_samples hf
    have hgle := hq.toTallied.observed_le_samples hg
    rw [hp.total_eq f hf, hq.total_eq g hg, Field.ofCounts, ih f hf g hg hle hge]
    cases hopt : f.optional with
    | true =>
        have := hfs.mp hopt
        have hm : (f.type.addCounts g.type).isNullable = true :=
          ih f hf g hg hle hge ▸ hnull f hf g.type (hp.isNullable f hf hopt)
        rw [if_pos (by omega), Schema.makeOptional_of_isNullable hm]
    | false =>
        rw [hopt] at hfs
        rw [ho, hopt] at hgs
        rw [if_neg (by simp only [Bool.false_eq_true, false_iff] at hfs hgs; omega)]
  have hnew : newFields (p.samples + q.samples) p.fields q.fields = [] :=
    newFields_eq_nil fun g hg => by
      obtain ⟨f, hf, hn, -⟩ := hqp.1 g hg
      exact hn ▸ List.mem_map_of_mem hf
  rw [toSchema, toSchema, toSchema, Schema.addCounts, hp.name_eq, merge, hfields, hnew,
    List.append_nil]

/-- Schemas that are below each other are merged by adding their counters. -/
theorem merge_eq_addCounts {a b : Schema} (ha : a.WellFormed .observed)
    (hb : b.WellFormed .observed) (hab : a ≤ b) (hba : b ≤ a) : a.merge b = a.addCounts b := by
  induction a using Schema.inductionOnParts generalizing b with
  | step a ihe ihf =>
      obtain ⟨hnab, hpab⟩ := (ha.le_iff hb).mp hab
      obtain ⟨hnba, hpba⟩ := (hb.le_iff ha).mp hba
      have hnull : a.isNullable = b.isNullable := Bool.eq_iff_iff.mpr ⟨hnab, hnba⟩
      have hlist : a.parts.toList.length = b.parts.toList.length ∧
          addAllCounts a.parts.toList b.parts.toList = (a.parts.merge b.parts).toList := by
        refine Parts.addAllCounts_toList hpab hpba (fun p q hp hq hpq hqp => ?_)
          fun p q hp hq hpq hqp => ?_
        · have hpw := ha.parts.array hp
          have hqw := hb.parts.array hq
          exact ArrayPart.addCounts_eq_merge hpw.1 hqw.1 hpq hqp (ihe p hp hpw.2 hqw.2)
        · have hpw := ha.parts.object hp
          have hqw := hb.parts.object hq
          have hpf := fieldsWellFormed_iff.mp hpw.2
          refine ObjectPart.addCounts_eq_merge hpw.1 hqw.1 hpq hqp (fun f hf g hg => ?_)
            fun f hf t h => ?_
          · exact ihf p hp f hf (hpf f hf) (fieldsWellFormed_iff.mp hqw.2 g hg)
          · rw [(hpf f hf).isNullable_merge, h, Bool.true_or]
      calc a.merge b
        _ = Schema.choice a.isNullable (a.parts.merge b.parts).toList := by
            rw [merge_eq, Parts.assemble_eq_choice, ← hnull, Bool.or_self]
        _ = (Schema.choice a.isNullable a.parts.toList).addCounts
              (Schema.choice b.isNullable b.parts.toList) := by
            rw [← hnull, Schema.addCounts_choice _ hlist.1, hlist.2]
        _ = a.addCounts b := by
            rw [← Parts.assemble_eq_choice, ← Parts.assemble_eq_choice, ha.assemble_parts,
              hb.assemble_parts]

/-- **Merging a structurally equal schema adds up the counters** and changes nothing else: neither
the structure, nor the order of the fields at any depth, and no conflict is recorded.  Merging a
schema with itself doubles its counters. -/
theorem merge_eq_addCounts_of_reachable {a b : Schema} (ha : a.Reachable) (hb : b.Reachable)
    (h : a.signature = b.signature) :
    a.merge b = a.addCounts b ∧ (a.merge b).signature = a.signature ∧
      ((a.merge b).mapCounts fun _ => 0) = (a.mapCounts fun _ => 0) ∧
      (∀ top, a.conflicts top b = []) ∧ a.merge a = a.mapCounts (2 * ·) := by
  have hk : ∀ p, Conditions.observed.object p → (p.fields.map Field.name).Nodup :=
    fun _ hp => hp.nodup_names
  have haw := ha.wellFormed
  have hbw := hb.wellFormed
  obtain ⟨hab, hba⟩ := (haw.le_antisymm_iff hk hbw).mpr h
  have hmerge : a.merge b = a.addCounts b := merge_eq_addCounts haw hbw hab hba
  have hcounts : ((a.merge b).mapCounts fun _ => 0) = (a.mapCounts fun _ => 0) := by
    rw [hmerge, Schema.mapCounts_addCounts]
  refine ⟨hmerge, ?_, hcounts, conflicts_eq_nil_of_le hk haw hbw (.inl hab), ?_⟩
  · rw [← Schema.signature_mapCounts (fun _ => 0), hcounts, Schema.signature_mapCounts]
  · rw [merge_eq_addCounts haw haw haw.le_refl haw.le_refl, haw.addCounts_self hk]

/-- Two objects of which one lacks a field, and two others with the fields in another order. -/
theorem merge_of_partly_observed :
    ((({} : Options).infer (.object [("id", .int 1), ("tags", .array [])])).merge
        (({} : Options).infer (.object [("tags", .array [])]))).merge
      ((({} : Options).infer (.object [("tags", .array [])])).merge
        (({} : Options).infer (.object [("tags", .array []), ("id", .int 2)]))) =
      .object none 4
        [⟨"id", .optional .int, true, 2, 4⟩, ⟨"tags", .array .null true, false, 4, 4⟩] := by
  refine (merge_eq_addCounts_of_reachable (.merge (.infer _ rfl) (.infer _ rfl))
    (.merge (.infer _ rfl) (.infer _ rfl)) ?_).1.trans ?_
  · with_unfolding_all show (Schema.object none 2
        [⟨"id", .optional .int, true, 1, 2⟩, ⟨"tags", .array .null true, false, 2, 2⟩]).signature =
      (Schema.object none 2
        [⟨"tags", .array .null true, false, 2, 2⟩, ⟨"id", .optional .int, true, 1, 2⟩]).signature
    exact signature_object_eq (by decide) (by decide) (by simp [fieldSignatures, or_comm])
  · with_unfolding_all rfl

end SampleSchema
