import SampleSchema.Proofs.Invariant
import SampleSchema.Proofs.LeastUpperBound

/-!
# Merging structurally equal schemas

Objects are merged by their counts: a field of the merge is optional when it was seen less often than
there were objects, whatever the fields of the two sides say of themselves.  The fields of the merge
stand in an order that comes from both sides.  Yet neither shows in the structure of a merge
(`signature_merge_of_reachable`): it is determined by the structures of the two schemas.

The merge is the least upper bound of the widening order, so it is monotone
(`Schema.WellFormed.merge_mono`).  The order knows structures only, so schemas that are structurally
equal are below each other, and so are their merges.
-/

namespace SampleSchema

namespace Schema.WellFormed

/-- Wider schemas have wider merges. -/
theorem merge_mono {k : Conditions} (hk : ∀ {p : ObjectPart}, k.object p → p.Tallied)
    {a a' b b' : Schema} (ha : a.WellFormed k) (ha' : a'.WellFormed k) (hb : b.WellFormed k)
    (hb' : b'.WellFormed k) (haa : a ≤ a') (hbb : b ≤ b') : a.merge b ≤ a'.merge b' := by
  have hnodup : ∀ p : ObjectPart, k.object p → (p.fields.map Field.name).Nodup :=
    fun _ hp => (hk hp).nodup_names
  have hm : (a'.merge b').WellFormed k := ha'.merge hb'
  have hleft : a ≤ a'.merge b' := ha.le_trans hnodup ha' hm haa (ha'.le_merge_left hk hb')
  have hright : b ≤ a'.merge b' := hb.le_trans hnodup hb' hm hbb (ha'.le_merge_right hk hb')
  exact ha.merge_le hk hb hm hleft hright

section
variable {object : ObjectPart → Prop}
  {of_merge : ∀ {p q}, object p → object q → object (p.merge q)}
  (hobj : ∀ {p : ObjectPart}, object p → p.Tallied) {a a' b b' : Schema}
include hobj

/-- Structurally equal schemas in canonical form have structurally equal merges. -/
theorem signature_merge_eq (ha : a.WellFormed (.canonical object of_merge))
    (ha' : a'.WellFormed (.canonical object of_merge))
    (hb : b.WellFormed (.canonical object of_merge))
    (hb' : b'.WellFormed (.canonical object of_merge)) (haa : a.signature = a'.signature)
    (hbb : b.signature = b'.signature) : (a.merge b).signature = (a'.merge b').signature := by
  have hnodup : ∀ p : ObjectPart, object p → (p.fields.map Field.name).Nodup :=
    fun _ hp => (hobj hp).nodup_names
  obtain ⟨hle, hge⟩ := (ha.le_antisymm_iff hnodup ha').mpr haa
  obtain ⟨hle', hge'⟩ := (hb.le_antisymm_iff hnodup hb').mpr hbb
  refine ((ha.merge hb).le_antisymm_iff hnodup (ha'.merge hb')).mp ⟨?_, ?_⟩
  · exact merge_mono hobj ha ha' hb hb' hle hle'
  · exact merge_mono hobj ha' ha hb' hb hge hge'

end

end Schema.WellFormed

/-- **Merging respects structural equality.**  Neither counts nor the order of fields, in which
structurally equal schemas may differ, have an influence on the structure of the merge. -/
theorem signature_merge_of_reachable {a a' b b' : Schema} (ha : a.Reachable) (ha' : a'.Reachable)
    (hb : b.Reachable) (hb' : b'.Reachable) (haa : a.signature = a'.signature)
    (hbb : b.signature = b'.signature) : (a.merge b).signature = (a'.merge b').signature :=
  Schema.WellFormed.signature_merge_eq (fun hp => hp.toTallied) ha.wellFormed ha'.wellFormed
    hb.wellFormed hb'.wellFormed haa hbb

/-- An object with two fields and an object with one, each seen once; and on the other side objects
seen twice, with the two fields in another order, and objects seen three times. -/
theorem signature_merge_of_objects :
    ((({} : Options).infer (.object [("id", .int 1), ("tags", .array [])])).merge
        (({} : Options).infer (.object [("id", .null)]))).signature =
      (((({} : Options).infer (.object [("tags", .array []), ("id", .int 2)])).merge
          (({} : Options).infer (.object [("id", .int 3), ("tags", .array [])]))).merge
        ((({} : Options).infer (.object [("id", .null)])).merge
          ((({} : Options).infer (.object [("id", .null)])).merge
            (({} : Options).infer (.object [("id", .null)]))))).signature := by
  have hnull : (({} : Options).infer (.object [("id", .null)])).Reachable := .infer _ rfl
  refine signature_merge_of_reachable (.infer _ rfl) (.merge (.infer _ rfl) (.infer _ rfl)) hnull
    (.merge hnull (.merge hnull hnull)) ?_ ?_
  · with_unfolding_all show (Schema.object none 1
        [⟨"id", .int, false, 1, 1⟩, ⟨"tags", .array .null true, false, 1, 1⟩]).signature =
      (Schema.object none 2
        [⟨"tags", .array .null true, false, 2, 2⟩, ⟨"id", .int, false, 2, 2⟩]).signature
    exact signature_object_eq (by decide) (by decide) (by simp [fieldSignatures, or_comm])
  · with_unfolding_all rfl

end SampleSchema
