import SampleSchema.Proofs.MergedFields
import SampleSchema.Schema.Signature

/-!
# Structural equality

The signature of an object sorts its fields by name, so for fields with distinct names it depends on
which fields there are and not on their order (`signature_object_eq`).
-/

namespace SampleSchema

theorem fieldSignatures_eq_map : ∀ fs : List (Field Schema),
    fieldSignatures fs = fs.map fun f => (f.name, f.type.signature, f.optional)
  | [] => rfl
  | f :: fs => by rw [fieldSignatures, fieldSignatures_eq_map fs, List.map_cons]

theorem signatures_eq_map : ∀ ts : List Schema, signatures ts = ts.map Schema.signature
  | [] => rfl
  | t :: ts => by rw [signatures, signatures_eq_map ts, List.map_cons]

/-! ### Sorting by name -/

section
variable {α : Type}

/-- Sorting by name forgets the order of entries with distinct names. -/
theorem mergeSort_eq_of_perm {l₁ l₂ : List (String × α)} (h : l₁.Perm l₂)
    (hn : (l₁.map Prod.fst).Nodup) : l₁.mergeSort fieldOrder = l₂.mergeSort fieldOrder := by
  have htrans : ∀ x y z : String × α, fieldOrder x y = true → fieldOrder y z = true →
      fieldOrder x z = true := fun x y z hxy hyz => by
    simp only [fieldOrder, decide_eq_true_eq] at *
    exact String.le_trans hxy hyz
  have htotal : ∀ x y : String × α, (fieldOrder x y || fieldOrder y x) = true := fun x y => by
    simp only [fieldOrder, Bool.or_eq_true, decide_eq_true_eq]
    exact String.le_total x.1 y.1
  have hperm : (l₁.mergeSort fieldOrder).Perm (l₂.mergeSort fieldOrder) :=
    (List.mergeSort_perm l₁ _).trans (h.trans (List.mergeSort_perm l₂ _).symm)
  refine List.Perm.eq_of_pairwise (fun x y hx hy hxy hyx => ?_)
    (List.pairwise_mergeSort htrans htotal l₁) (List.pairwise_mergeSort htrans htotal l₂) hperm
  -- entries whose names are below each other have one name
  simp only [fieldOrder, decide_eq_true_eq] at hxy hyx
  exact List.inj_on_of_nodup_map hn (List.mem_mergeSort.mp hx)
    (h.mem_iff.mpr (List.mem_mergeSort.mp hy)) (String.le_antisymm hxy hyx)

end

/-! ### Signatures of objects and of choices -/

theorem nodup_fieldSignatures {fs : List (Field Schema)} (h : (fs.map Field.name).Nodup) :
    (fieldSignatures fs).Nodup ∧ ((fieldSignatures fs).map Prod.fst).Nodup := by
  have hfst : (fieldSignatures fs).map Prod.fst = fs.map Field.name := by
    rw [fieldSignatures_eq_map, List.map_map]
    rfl
  rw [hfst]
  exact ⟨List.Pairwise.of_map Prod.fst (fun _ _ hne e => hne (congrArg Prod.fst e)) (hfst ▸ h), h⟩

/-- Objects that have the same fields up to order, name and counts have one signature. -/
theorem signature_object_eq {n m : Option String} {k l : Int} {fs gs : List (Field Schema)}
    (hf : (fs.map Field.name).Nodup) (hg : (gs.map Field.name).Nodup)
    (h : ∀ x, x ∈ fieldSignatures fs ↔ x ∈ fieldSignatures gs) :
    (Schema.object n k fs).signature = (Schema.object m l gs).signature := by
  obtain ⟨hf, hfst⟩ := nodup_fieldSignatures hf
  have hperm := (List.perm_ext_iff_of_nodup hf (nodup_fieldSignatures hg).1).mpr h
  rw [Schema.signature, Schema.signature, mergeSort_eq_of_perm hperm hfst]

theorem Schema.signature_choice {nullable : Bool} : ∀ {ts us : List Schema},
    signatures ts = signatures us →
      (Schema.choice nullable ts).signature = (Schema.choice nullable us).signature
  | [], [], _ => rfl
  | [t], [u], h => by
      obtain ⟨h, -⟩ := List.cons_eq_cons.mp h
      cases nullable
      · exact h
      · exact congrArg Signature.optional h
  | t :: t' :: ts, u :: u' :: us, h => by
      cases nullable
      · exact congrArg Signature.union h
      · exact congrArg (fun l => Signature.optional (.union l)) h
  | [], _ :: _, h | _ :: _, [], h | [_], _ :: _ :: _, h | _ :: _ :: _, [_], h => by
      simp [signatures] at h

end SampleSchema
