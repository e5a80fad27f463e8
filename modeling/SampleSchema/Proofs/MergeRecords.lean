import Mathlib.Data.Option.Basic
import SampleSchema.Proofs.Clashes
import SampleSchema.Proofs.Invariant

/-!
# Which conflicts a merge records

A merge of well-formed schemas records their clashes (`exists_records`), region by region: nothing
inside where one side has nothing, what the merge of the elements records, what that of each field
records, and the clash at the top, if there is one.

Clashes do not depend on which schema is on the left (`conflicts_perm`), and a schema that is below
another clashes with it nowhere (`conflicts_eq_nil_of_le`).
-/

namespace SampleSchema

/-! ### The records of a merge -/

section
variable {k : Conditions} (hk : ∀ p, k.object p → (p.fields.map Field.name).Nodup)
include hk

/-- What is recorded one step inside well-formed parts. -/
theorem Records.inside_merge {p q r s : Parts} {i : Inward} {cs : String → List Conflict}
    (hp : p.WellFormed k) (hq : q.WellFormed k) (hr : p.inside? i = some r)
    (hs : q.inside? i = some s) (h : ∃ ps, Records r s (fun _ => True) cs ps) :
    ∃ ps, Records p q (fun pos => pos.head? = some i) (fun top => cs (i.path top)) ps := by
  obtain ⟨ps, h⟩ := h
  exact ⟨_, h.inside hr hs (Parts.inside?_merge hk hp hq hr hs)⟩

omit hk in
/-- Nothing is recorded inside when one side has nothing there. -/
theorem Records.of_missing {p q : Parts} {i : Inward}
    (h : p.inside? i = none ∨ q.inside? i = none) :
    Records p q (fun pos => pos.head? = some i) (fun _ => []) [] := by
  refine .nil fun pos hhead hclash => ?_
  obtain ⟨pos, rfl⟩ := List.head?_eq_some_iff.mp hhead
  obtain ⟨r, s, hr, hs, -⟩ := Parts.clashAt_cons.mp hclash
  rcases h with h | h
  · cases h.symm.trans hr
  · cases h.symm.trans hs

/-- The conflicts inside of arrays are recorded, if those of their items are. -/
theorem records_arrays {p q : Parts} (hp : p.WellFormed k) (hq : q.WellFormed k)
    (ih : ∀ a, p.array = some a → ∀ b, q.array = some b → ∃ ps, Records a.element.parts
      b.element.parts (fun _ => True) (fun top => a.element.conflicts top b.element) ps) :
    ∃ ps, Records p q (fun pos => pos.head? = some .element)
      (fun top => arrayConflicts top p.array q.array) ps := by
  by_cases h : p.inside? .element = none ∨ q.inside? .element = none
  · refine ⟨[], (Records.of_missing h).congr (fun _ _ => Iff.rfl) fun top => ?_⟩
    exact Parts.arrayConflicts_of_missing top h
  · obtain ⟨hr, hs⟩ := not_or.mp h
    obtain ⟨r, hr⟩ := Option.ne_none_iff_exists'.mp hr
    obtain ⟨s, hs⟩ := Option.ne_none_iff_exists'.mp hs
    obtain ⟨a, ha, hae, rfl⟩ := Parts.inside?_element.mp hr
    obtain ⟨b, hb, hbe, rfl⟩ := Parts.inside?_element.mp hs
    obtain ⟨ps, h⟩ := Records.inside_merge hk hp hq hr hs (ih a ha b hb)
    refine ⟨ps, h.congr (fun _ _ => Iff.rfl) fun top => ?_⟩
    simp [ha, hb, arrayConflicts, hae, hbe, Inward.path]

/-- The conflicts inside of some fields are recorded, if those of their values are. -/
theorem records_fields {p q : Parts} (hp : p.WellFormed k) (hq : q.WellFormed k)
    {o u : ObjectPart} (ho : p.object = some o) (hu : q.object = some u)
    (ih : ∀ f ∈ o.fields, ∀ g ∈ u.fields, ∃ ps, Records f.type.parts g.type.parts
      (fun _ => True) (fun top => f.type.conflicts top g.type) ps) :
    ∀ fs : List (Field Schema), fs ⊆ o.fields → (fs.map Field.name).Nodup →
      ∃ ps, Records p q (fun pos => ∃ f ∈ fs, pos.head? = some (.field f.name))
        (fun top => fieldConflicts top u.fields fs) ps
  | [], _, _ => ⟨[], (Records.nil (by simp)).congr (fun _ _ => Iff.rfl) fun _ => by
      rw [fieldConflicts]⟩
  | f :: fs, hsub, hn => by
      obtain ⟨hf, hfs⟩ := List.cons_subset.mp hsub
      obtain ⟨hnf, hn⟩ := List.nodup_cons.mp hn
      have hlast := lastField?_eq_some (hk o (hp.object ho).1) hf
      have hr := Parts.inside?_field.mpr ⟨o, ho, f, hlast, rfl⟩
      have hfirst : ∃ ps, Records p q (fun pos => pos.head? = some (.field f.name))
          (fun top => (lastField? u.fields f.name).elim [] fun g =>
            f.type.conflicts (fieldPath top f.name) g.type) ps := by
        cases hg : lastField? u.fields f.name with
        | none =>
            refine ⟨[], Records.of_missing (.inr ?_)⟩
            simp [Parts.inside?, hu, hg]
        | some g =>
            have hs := Parts.inside?_field.mpr ⟨u, hu, g, hg, rfl⟩
            exact Records.inside_merge hk hp hq hr hs (ih f hf g (mem_of_lastField? hg).1)
      obtain ⟨ps, hfirst⟩ := hfirst
      obtain ⟨qs, hrest⟩ := records_fields hp hq ho hu ih fs hfs hn
      refine ⟨_, (hfirst.append hrest ?_).congr (fun pos _ => ?_) fun top => ?_⟩
      · rintro pos pos' hhead ⟨g, hg, hhead'⟩ hpre
        obtain ⟨_, rfl⟩ := List.head?_eq_some_iff.mp hhead
        obtain ⟨_, rfl⟩ := List.head?_eq_some_iff.mp hhead'
        have hname := Inward.field.inj (List.cons_prefix_cons.mp hpre).1
        exact hnf (hname ▸ List.mem_map_of_mem hg)
      · simp
      · rw [fieldConflicts]
        cases lastField? u.fields f.name <;> rfl

/-- The conflicts inside of objects are recorded, if those of their fields are. -/
theorem records_objects {p q : Parts} (hp : p.WellFormed k) (hq : q.WellFormed k)
    (ih : ∀ o, p.object = some o → ∀ f ∈ o.fields, ∀ u, q.object = some u → ∀ g ∈ u.fields,
      ∃ ps, Records f.type.parts g.type.parts (fun _ => True)
        (fun top => f.type.conflicts top g.type) ps) :
    ∃ ps, Records p q (fun pos => ∃ name, pos.head? = some (.field name))
      (fun top => objectConflicts top p.object q.object) ps := by
  -- a clash inside a field is inside a field that both objects have
  have hboth : ∀ pos name, pos.head? = some (.field name) → p.ClashAt q pos →
      ∃ o u, p.object = some o ∧ q.object = some u ∧ ∃ f ∈ o.fields, f.name = name := by
    intro pos name hhead hclash
    obtain ⟨pos, rfl⟩ := List.head?_eq_some_iff.mp hhead
    obtain ⟨r, s, hr, hs, -⟩ := Parts.clashAt_cons.mp hclash
    obtain ⟨o, ho, f, hf, -⟩ := Parts.inside?_field.mp hr
    obtain ⟨u, hu, -⟩ := Parts.inside?_field.mp hs
    exact ⟨o, u, ho, hu, f, mem_of_lastField? hf⟩
  by_cases h : p.object = none ∨ q.object = none
  · refine ⟨[], (Records.nil ?_).congr (fun _ _ => Iff.rfl) fun top => ?_⟩
    · rintro pos ⟨name, hhead⟩ hclash
      obtain ⟨o, u, ho, hu, -⟩ := hboth pos name hhead hclash
      simp [ho, hu] at h
    · exact Parts.objectConflicts_of_missing top h
  · obtain ⟨ho, hu⟩ := not_or.mp h
    obtain ⟨o, ho⟩ := Option.ne_none_iff_exists'.mp ho
    obtain ⟨u, hu⟩ := Option.ne_none_iff_exists'.mp hu
    obtain ⟨ps, h⟩ := records_fields hk hp hq ho hu (fun f hf => ih o ho f hf u hu) o.fields
      (List.Subset.refl _) (hk o (hp.object ho).1)
    refine ⟨ps, h.congr (fun pos hclash => ⟨fun ⟨f, _, hhead⟩ => ⟨_, hhead⟩, ?_⟩) fun top => ?_⟩
    · rintro ⟨name, hhead⟩
      obtain ⟨o', _, ho', -, f, hf, rfl⟩ := hboth pos name hhead hclash
      cases ho.symm.trans ho'
      exact ⟨f, hf, hhead⟩
    · rw [ho, hu, objectConflicts]

/-- **A merge records one conflict for each clash**, the inner ones first. -/
theorem exists_records {a b : Schema} (ha : a.WellFormed k) (hb : b.WellFormed k) :
    ∃ ps, Records a.parts b.parts (fun _ => True) (fun top => a.conflicts top b) ps := by
  induction a using Schema.inductionOnParts generalizing b with
  | step a ihe ihf =>
      obtain ⟨ps, harrays⟩ := records_arrays hk ha.parts hb.parts fun p hp q hq =>
        ihe p hp (ha.parts.array hp).2 (hb.parts.array hq).2
      obtain ⟨qs, hobjects⟩ := records_objects hk ha.parts hb.parts fun p hp f hf q hq g hg =>
        ihf p hp f hf (fieldsWellFormed_iff.mp (ha.parts.object hp).2 f hf)
          (fieldsWellFormed_iff.mp (hb.parts.object hq).2 g hg)
      obtain ⟨own, hown⟩ := Records.own a.parts b.parts
      refine ⟨_, ((harrays.append hobjects ?_).append hown ?_).congr (fun pos _ => ?_) fun top =>
        Schema.conflicts_eq top a b⟩
      · rintro pos pos' hhead ⟨name, hhead'⟩ hpre
        obtain ⟨_, rfl⟩ := List.head?_eq_some_iff.mp hhead
        obtain ⟨_, rfl⟩ := List.head?_eq_some_iff.mp hhead'
        cases (List.cons_prefix_cons.mp hpre).1
      -- only the top itself comes before the top
      · rintro pos _ hhead rfl hpre
        rw [List.prefix_nil.mp hpre] at hhead
        simp at hhead
      · rcases pos with _ | ⟨_ | name, pos⟩ <;> simp

end

/-! ### Records that depend on the order, and records of nothing -/

namespace Parts

/-- The kinds of merged parts do not depend on which parts are on the left. -/
theorem kinds_merge_comm (p q : Parts) :
    (p.merge q).toList.map Schema.kind = (q.merge p).toList.map Schema.kind := by
  have hmerge : ∀ {α : Type} {f : α → Kind} {op : α → α → α} {x y : Option α},
      (∀ a b, f (op a b) = f (op b a)) →
        (Option.merge op x y).map f = (Option.merge op y x).map f := by
    intro α f op x y h
    cases x <;> cases y <;> simp [Option.merge, h]
  have hbool : (p.merge q).bool = (q.merge p).bool := Bool.or_comm ..
  have hnumber : (p.merge q).number.map (fun n => n.toSchema.kind) =
      (q.merge p).number.map fun n => n.toSchema.kind :=
    hmerge fun m n => by cases m <;> cases n <;> rfl
  have hstring : (p.merge q).string.map (fun s => s.toSchema.kind) =
      (q.merge p).string.map fun s => s.toSchema.kind :=
    hmerge fun s t => by cases s <;> cases t <;> rfl
  have harray : (p.merge q).array.map (fun a => a.toSchema.kind) =
      (q.merge p).array.map fun a => a.toSchema.kind := hmerge fun _ _ => rfl
  have hobject : (p.merge q).object.map (fun o => o.toSchema.kind) =
      (q.merge p).object.map fun o => o.toSchema.kind := hmerge fun _ _ => rfl
  rw [map_toList, map_toList, hbool, hnumber, hstring, harray, hobject]

/-- Parts that are below others have no further buckets. -/
theorem Le.bucketsOf_subset {p q : Parts} (h : p.Le q) :
    bucketsOf p.toList ⊆ bucketsOf q.toList := by
  have hbelow : ∀ {α : Type} {R : α → α → Prop} {f : α → Schema} {x y : Option α},
      Below R x y → (x.map f).isSome = true → (y.map f).isSome = true := by
    intro α R f x y hxy hx
    rw [Option.isSome_map] at hx ⊢
    obtain ⟨a, ha⟩ := Option.isSome_iff_exists.mp hx
    obtain ⟨b, hb, -⟩ := hxy a ha
    exact Option.isSome_iff_exists.mpr ⟨b, hb⟩
  rw [bucketsOf_toList, bucketsOf_toList]
  refine List.map_subset _ fun b hb => ?_
  obtain ⟨hmem, hb⟩ := List.mem_filter.mp hb
  refine List.mem_filter.mpr ⟨hmem, ?_⟩
  cases b with
  | bool =>
      cases hp : p.bool with
      | true => simp [variant?, h.bool hp]
      | false => simp [variant?, hp] at hb
  | number => exact hbelow h.number hb
  | string => exact hbelow h.string hb
  | array => exact hbelow h.array hb
  | object => exact hbelow h.object hb

end Parts

section
variable {k : Conditions} (hk : ∀ p, k.object p → (p.fields.map Field.name).Nodup)
include hk

/-- The same conflicts are recorded from both sides, in some order. -/
theorem conflicts_perm {a b : Schema} (ha : a.WellFormed k) (hb : b.WellFormed k) (top : String) :
    (a.conflicts top b).Perm (b.conflicts top a) := by
  obtain ⟨ps, h⟩ := exists_records hk ha hb
  obtain ⟨qs, h'⟩ := exists_records hk hb ha
  have hperm : ps.Perm qs := (List.perm_ext_iff_of_nodup h.nodup h'.nodup).mpr fun pos => by
    rw [h.mem_iff, h'.mem_iff, Parts.clashAt_comm]
  -- at a clash both merges have the same kinds
  have hsame : ∀ pos ∈ ps, (a.parts.merge b.parts).conflictAt? top pos =
      (b.parts.merge a.parts).conflictAt? top pos := by
    intro pos hpos
    obtain ⟨-, r, s, hr, hs, -⟩ := (h.mem_iff pos).mp hpos
    rw [Parts.conflictAt?, Parts.conflictAt?, Parts.at?_merge hk ha.parts hb.parts hr hs,
      Parts.at?_merge hk hb.parts ha.parts hs hr, Option.map_some, Option.map_some,
      Parts.kinds_merge_comm]
  refine (List.map_perm_map_iff (Option.some_injective _)).mp ?_
  rw [h.eq_map, h'.eq_map, List.map_congr_left hsame]
  exact hperm.map _

/-- A schema that is below another clashes with it nowhere. -/
theorem conflicts_eq_nil_of_le {a b : Schema} (ha : a.WellFormed k) (hb : b.WellFormed k)
    (h : a ≤ b ∨ b ≤ a) (top : String) : a.conflicts top b = [] := by
  obtain ⟨ps, hps⟩ := exists_records hk ha hb
  have hnil : ps = [] := by
    refine List.eq_nil_iff_forall_not_mem.mpr fun pos hpos => ?_
    obtain ⟨-, r, s, hr, hs, hrs, hsr⟩ := (hps.mem_iff pos).mp hpos
    rcases h with hab | hba
    · have hle := ((ha.le_iff hb).mp hab).2
      exact hrs (hle.at? hk ha.parts hb.parts hr hs).bucketsOf_subset
    · have hle := ((hb.le_iff ha).mp hba).2
      exact hsr (hle.at? hk hb.parts ha.parts hs hr).bucketsOf_subset
  simpa [hnil] using hps.eq_map top

end

/-- **The conflicts of a merge are its clashes.**  There is one conflict for each position at which
the two schemas clash, with the path of the position and the kinds of the merged parts there, and
those further inside come first.  So the order of the two schemas does not matter, and nothing is
recorded when one of them already has the structure of the merge. -/
theorem conflicts_eq_clashes {a b : Schema} (ha : a.Reachable) (hb : b.Reachable) :
    (∃ ps : List Position, ps.Nodup ∧ (∀ pos, pos ∈ ps ↔ a.parts.ClashAt b.parts pos) ∧
      (ps.Pairwise fun inner outer => ¬ inner <+: outer) ∧
      ∀ top, (a.conflicts top b).map some = ps.map ((a.merge b).parts.conflictAt? top)) ∧
    (∀ top, (a.conflicts top b).Perm (b.conflicts top a)) ∧
    ((a.merge b).signature = a.signature ∨ (a.merge b).signature = b.signature →
      ∀ top, a.conflicts top b = []) := by
  have hk : ∀ p, Conditions.observed.object p → (p.fields.map Field.name).Nodup :=
    fun _ hp => hp.nodup_names
  have haw := ha.wellFormed
  have hbw := hb.wellFormed
  have hmw := haw.merge hbw
  have htallied : ∀ {p}, Conditions.observed.object p → p.Tallied :=
    fun hp => ObjectPart.Observed.toTallied hp
  refine ⟨?_, conflicts_perm hk haw hbw, fun h => ?_⟩
  · obtain ⟨ps, h⟩ := exists_records hk haw hbw
    refine ⟨ps, h.nodup, fun pos => (h.mem_iff pos).trans (by simp), h.innerFirst,
      fun top => ?_⟩
    rw [h.eq_map, Schema.parts_merge]
  · have hleft : a ≤ a.merge b := haw.le_merge_left htallied hbw
    have hright : b ≤ a.merge b := haw.le_merge_right htallied hbw
    refine conflicts_eq_nil_of_le hk haw hbw ?_
    rcases h with h | h
    · exact .inr (hbw.le_trans hk hmw haw hright ((hmw.le_antisymm_iff hk haw).mpr h).1)
    · exact .inl (haw.le_trans hk hmw hbw hleft ((hmw.le_antisymm_iff hk hbw).mpr h).1)

/-- Objects with an identifier that is a number in one and a truth value in the other, and the merge
of an integer with another. -/
theorem conflicts_of_objects :
    (∃ ps : List Position, [.field "id"] ∈ ps ∧ ∀ top,
      ((({} : Options).infer (.object [("id", .int 1), ("tags", .array [])])).conflicts top
        (({} : Options).infer (.object [("id", .bool true)]))).map some =
      ps.map (((({} : Options).infer (.object [("id", .int 1), ("tags", .array [])])).merge
        (({} : Options).infer (.object [("id", .bool true)]))).parts.conflictAt? top)) ∧
    (({} : Options).infer (.int 1)).conflicts "" (({} : Options).infer (.int 2)) = [] := by
  constructor
  · obtain ⟨ps, -, hmem, -, hps⟩ := (conflicts_eq_clashes
      (.infer {} (v := .object [("id", .int 1), ("tags", .array [])]) rfl)
      (.infer {} (v := .object [("id", .bool true)]) rfl)).1
    exact ⟨ps, (hmem _).mpr ⟨_, _, rfl, rfl, by decide, by decide⟩, hps⟩
  · refine (conflicts_eq_clashes (.infer {} (v := .int 1) rfl) (.infer {} (v := .int 2) rfl)).2.2
      (.inl ?_) ""
    rw [merge_eq]
    rfl

end SampleSchema
