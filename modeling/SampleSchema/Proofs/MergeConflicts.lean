import SampleSchema.Proofs.Unions

/-!
# Conflicts of a merge

`Accounts before cs after` says that the conflicts `cs` account for the step from the unions `before`
to the unions `after`: every new path of a union has a conflict, no path loses its union, and every
conflict stands where there is a union with the buckets of its kinds.  Steps that are accounted for
can be put side by side (`Accounts.append`) and one after the other (`Accounts.trans`).

Merging two schemas is such a step, from the unions in both to the unions in the merge
(`accounts_merge`).  Which conflicts are recorded on the way depends on how merges are nested; that
they account for the unions in the end does not.
-/

namespace SampleSchema

/-- The buckets of the kinds of a conflict; `none` stands for kinds in no bucket. -/
def Conflict.buckets (c : Conflict) : List (Option Bucket) := c.kinds.map Kind.bucket?

/-- Whether there are two kinds or more in a conflict, each in a bucket of its own. -/
structure Conflict.Genuine (c : Conflict) : Prop where
  two_le  : 2 ≤ c.kinds.length
  nodup   : c.buckets.Nodup
  none_notMem : none ∉ c.buckets

/-- Whether there is a union at a path that has certain buckets among others. -/
def HasUnion (us : List (String × List Schema)) (path : String) (bs : List (Option Bucket)) : Prop :=
  ∃ u ∈ us, u.1 = path ∧ bs ⊆ bucketsOf u.2

/-- Whether conflicts account for a step from some unions to others. -/
structure Accounts (before : List (String × List Schema)) (cs : List Conflict)
    (after : List (String × List Schema)) : Prop where
  reported : ∀ u ∈ after, (∃ v ∈ before, v.1 = u.1) ∨ ∃ c ∈ cs, c.path = u.1
  kept     : ∀ v ∈ before, HasUnion after v.1 (bucketsOf v.2)
  genuine  : ∀ c ∈ cs, c.Genuine ∧ HasUnion after c.path c.buckets

namespace Accounts
variable {us vs ws us' vs' : List (String × List Schema)} {cs ds : List Conflict}

/-- Without conflicts unions account for themselves. -/
theorem refl (us : List (String × List Schema)) : Accounts us [] us where
  reported := fun u hu => .inl ⟨u, hu, rfl⟩
  kept := fun v hv => ⟨v, hv, rfl, List.Subset.refl _⟩
  genuine := nofun

theorem append (h : Accounts us cs vs) (h' : Accounts us' ds vs') :
    Accounts (us ++ us') (cs ++ ds) (vs ++ vs') := by
  have left : ∀ {path : String} {bs : List (Option Bucket)}, HasUnion vs path bs →
      HasUnion (vs ++ vs') path bs := fun ⟨u, hu, h⟩ => ⟨u, List.mem_append_left _ hu, h⟩
  have right : ∀ {path : String} {bs : List (Option Bucket)}, HasUnion vs' path bs →
      HasUnion (vs ++ vs') path bs := fun ⟨u, hu, h⟩ => ⟨u, List.mem_append_right _ hu, h⟩
  refine ⟨fun u hu => ?_, fun v hv => ?_, fun c hc => ?_⟩
  · rcases List.mem_append.mp hu with hu | hu
    · rcases h.reported u hu with ⟨v, hv, e⟩ | ⟨c, hc, e⟩
      · exact .inl ⟨v, List.mem_append_left _ hv, e⟩
      · exact .inr ⟨c, List.mem_append_left _ hc, e⟩
    · rcases h'.reported u hu with ⟨v, hv, e⟩ | ⟨c, hc, e⟩
      · exact .inl ⟨v, List.mem_append_right _ hv, e⟩
      · exact .inr ⟨c, List.mem_append_right _ hc, e⟩
  · rcases List.mem_append.mp hv with hv | hv
    · exact left (h.kept v hv)
    · exact right (h'.kept v hv)
  · rcases List.mem_append.mp hc with hc | hc
    · exact ⟨(h.genuine c hc).1, left (h.genuine c hc).2⟩
    · exact ⟨(h'.genuine c hc).1, right (h'.genuine c hc).2⟩

/-- A union on one side is covered by one of the merge. -/
theorem hasUnion (h : Accounts us cs vs) {path : String} {bs : List (Option Bucket)}
    (hu : HasUnion us path bs) : HasUnion vs path bs := by
  obtain ⟨u, hu, rfl, hbs⟩ := hu
  obtain ⟨v, hv, e, huv⟩ := h.kept u hu
  exact ⟨v, hv, e, List.Subset.trans hbs huv⟩

theorem trans (h : Accounts us cs vs) (h' : Accounts vs ds ws) : Accounts us (cs ++ ds) ws := by
  refine ⟨fun w hw => ?_, fun u hu => h'.hasUnion (h.kept u hu), fun c hc => ?_⟩
  · rcases h'.reported w hw with ⟨v, hv, e⟩ | ⟨c, hc, e⟩
    · rcases h.reported v hv with ⟨u, hu, e'⟩ | ⟨c, hc, e'⟩
      · exact .inl ⟨u, hu, e'.trans e⟩
      · exact .inr ⟨c, List.mem_append_left _ hc, e'.trans e⟩
    · exact .inr ⟨c, List.mem_append_right _ hc, e⟩
  · rcases List.mem_append.mp hc with hc | hc
    · exact ⟨(h.genuine c hc).1, h'.hasUnion (h.genuine c hc).2⟩
    · exact h'.genuine c hc

/-- Only which unions and conflicts there are matters, not their order. -/
theorem of_mem_iff (h : Accounts us cs vs) (hu : ∀ u, u ∈ us ↔ u ∈ us') (hc : ∀ c, c ∈ cs ↔ c ∈ ds) :
    Accounts us' ds vs := by
  refine ⟨fun v hv => ?_, fun u hu' => h.kept u ((hu u).mpr hu'),
    fun c hc' => h.genuine c ((hc c).mpr hc')⟩
  rcases h.reported v hv with ⟨u, hu', e⟩ | ⟨c, hc', e⟩
  · exact .inl ⟨u, (hu u).mp hu', e⟩
  · exact .inr ⟨c, (hc c).mp hc', e⟩

end Accounts

/-! ### The union of the merged parts -/

theorem mem_ownUnion_iff {path : String} {ts : List Schema} {u : String × List Schema} :
    u ∈ ownUnion path ts ↔ 2 ≤ ts.length ∧ u = (path, ts) := by
  rw [ownUnion]
  split <;> simp [*]

namespace Parts
variable (p q : Parts)

/-- A merge has a part in a bucket if either side has. -/
theorem isSome_variant?_merge (b : Bucket) : ((p.merge q).variant? b).isSome =
    ((p.variant? b).isSome || (q.variant? b).isSome) := by
  obtain ⟨pb, pn, ps, pa, po⟩ := p
  obtain ⟨qb, qn, qs, qa, qo⟩ := q
  cases b with
  | bool => cases pb <;> cases qb <;> rfl
  | number => cases pn <;> cases qn <;> rfl
  | string => cases ps <;> cases qs <;> rfl
  | array => cases pa <;> cases qa <;> rfl
  | object => cases po <;> cases qo <;> rfl

theorem length_toList : p.toList.length = Bucket.all.countP fun b => (p.variant? b).isSome := by
  have h := congrArg List.length p.bucketsOf_toList
  rwa [bucketsOf, List.length_map, List.length_map, ← List.countP_eq_length_filter] at h

/-- Each part has a bucket of its own. -/
theorem nodup_bucketsOf_toList : (bucketsOf p.toList).Nodup ∧ none ∉ bucketsOf p.toList := by
  have hall : Bucket.all.Nodup := by decide
  rw [p.bucketsOf_toList]
  refine ⟨List.Pairwise.map some (fun _ _ hne e => hne (Option.some.inj e)) (hall.filter _), ?_⟩
  simp

theorem length_toList_le_merge :
    p.toList.length ≤ (p.merge q).toList.length ∧ q.toList.length ≤ (p.merge q).toList.length := by
  rw [length_toList, length_toList, length_toList]
  constructor <;>
    · refine List.countP_mono_left fun b _ h => ?_
      rw [isSome_variant?_merge, h]
      simp

/-- A merge has the buckets of both sides. -/
theorem bucketsOf_toList_subset_merge :
    bucketsOf p.toList ⊆ bucketsOf (p.merge q).toList ∧
      bucketsOf q.toList ⊆ bucketsOf (p.merge q).toList := by
  rw [bucketsOf_toList, bucketsOf_toList, bucketsOf_toList]
  constructor <;>
    · refine List.map_subset _ fun b hb => ?_
      obtain ⟨hb, h⟩ := List.mem_filter.mp hb
      exact List.mem_filter.mpr ⟨hb, by rw [isSome_variant?_merge, h]; simp⟩

/-- The conflict of a position accounts for its union. -/
theorem accounts_conflictBetween (path : String) :
    Accounts (ownUnion path p.toList ++ ownUnion path q.toList) (conflictBetween path p q)
      (ownUnion path (p.merge q).toList) := by
  obtain ⟨hlp, hlq⟩ := length_toList_le_merge p q
  obtain ⟨hbp, hbq⟩ := bucketsOf_toList_subset_merge p q
  refine ⟨fun u hu => ?_, fun v hv => ?_, fun c hc => ?_⟩
  · obtain ⟨hlen, rfl⟩ := mem_ownUnion_iff.mp hu
    by_cases hmax : max p.toList.length q.toList.length < (p.merge q).toList.length
    · refine .inr ⟨⟨path, (p.merge q).toList.map Schema.kind⟩, ?_, rfl⟩
      rw [conflictBetween, if_pos ⟨hlen, hmax⟩]
      exact List.mem_singleton_self _
    -- otherwise one of the two has as many parts as the merge
    · refine .inl ?_
      by_cases hp : 2 ≤ p.toList.length
      · exact ⟨_, List.mem_append_left _ (mem_ownUnion_iff.mpr ⟨hp, rfl⟩), rfl⟩
      · have hq : 2 ≤ q.toList.length := by omega
        exact ⟨_, List.mem_append_right _ (mem_ownUnion_iff.mpr ⟨hq, rfl⟩), rfl⟩
  · rcases List.mem_append.mp hv with hv | hv <;> obtain ⟨hlen, rfl⟩ := mem_ownUnion_iff.mp hv
    · exact ⟨_, mem_ownUnion_iff.mpr ⟨Nat.le_trans hlen hlp, rfl⟩, rfl, hbp⟩
    · exact ⟨_, mem_ownUnion_iff.mpr ⟨Nat.le_trans hlen hlq, rfl⟩, rfl, hbq⟩
  · rw [conflictBetween] at hc
    split at hc
    · rename_i hlen
      obtain rfl := List.mem_singleton.mp hc
      have hbuckets : Conflict.buckets ⟨path, (p.merge q).toList.map Schema.kind⟩ =
          bucketsOf (p.merge q).toList := List.map_map
      obtain ⟨hnodup, hnone⟩ := (p.merge q).nodup_bucketsOf_toList
      refine ⟨⟨?_, hbuckets ▸ hnodup, hbuckets ▸ hnone⟩, (path, (p.merge q).toList),
        mem_ownUnion_iff.mpr ⟨hlen.1, rfl⟩, rfl, hbuckets ▸ List.Subset.refl _⟩
      rw [List.length_map]
      exact hlen.1
    · cases hc

end Parts

/-! ### Merged arrays and objects -/

/-- The conflicts of merging arrays. -/
def arrayConflicts (path : String) : Option ArrayPart → Option ArrayPart → List Conflict
  | some p, some q =>
    if p.empty || q.empty then [] else p.element.conflicts (elementPath path) q.element
  | _, _ => []

/-- The conflicts of merging objects. -/
def objectConflicts (path : String) : Option ObjectPart → Option ObjectPart → List Conflict
  | some p, some q => fieldConflicts path q.fields p.fields
  | _, _ => []

/-- The conflicts of a merge, inside of arrays, inside of objects, and its own. -/
theorem Schema.conflicts_eq (path : String) (a b : Schema) :
    a.conflicts path b = arrayConflicts path a.parts.array b.parts.array ++
      objectConflicts path a.parts.object b.parts.object ++ conflictBetween path a.parts b.parts := by
  rw [Schema.conflicts]
  congr 2
  · cases a.parts.array <;> cases b.parts.array <;> rfl
  · cases a.parts.object <;> cases b.parts.object <;> rfl

theorem mem_fieldConflicts_iff {path : String} {gs : List (Field Schema)} {c : Conflict} :
    ∀ {fs : List (Field Schema)}, c ∈ fieldConflicts path gs fs ↔
      ∃ f ∈ fs, ∃ g, lastField? gs f.name = some g ∧
        c ∈ f.type.conflicts (fieldPath path f.name) g.type
  | [] => by simp [fieldConflicts]
  | f :: fs => by
      rw [fieldConflicts, List.mem_append, mem_fieldConflicts_iff]
      cases h : lastField? gs f.name with
      | none => simp [h]
      | some g => simp [h]

/-- Conflicts account for the unions inside of arrays, if those of the items do. -/
theorem ArrayPart.accounts_merge {p q : ArrayPart} {path : String}
    (hp : p.empty = true → p.element = .null) (hq : q.empty = true → q.element = .null)
    (ih : Accounts (p.element.unions (elementPath path) ++ q.element.unions (elementPath path))
      (p.element.conflicts (elementPath path) q.element)
      ((p.element.merge q.element).unions (elementPath path))) :
    Accounts (arrayUnions path (some p) ++ arrayUnions path (some q))
      (arrayConflicts path (some p) (some q)) (arrayUnions path (some (p.merge q))) := by
  show Accounts (p.element.unions (elementPath path) ++ q.element.unions (elementPath path)) _
    ((p.merge q).element.unions (elementPath path))
  rw [arrayConflicts, ArrayPart.merge]
  -- a placeholder on one side gives way to the other, and has no unions
  by_cases hpe : p.empty = true
  · rw [if_pos hpe, if_pos (by rw [hpe, Bool.true_or]), hp hpe]
    exact .refl _
  by_cases hqe : q.empty = true
  · rw [if_neg hpe, if_pos hqe, if_pos (by rw [hqe, Bool.or_true]), hq hqe, Schema.unions,
      List.append_nil]
    exact .refl _
  · rw [if_neg hpe, if_neg hqe, if_neg (by simp [hpe, hqe])]
    exact ih

/-- The unions in merged objects are those in the merged types of fields that both sides have, and
those in fields that only one side has. -/
theorem ObjectPart.mem_fieldUnions_merge_iff {p q : ObjectPart} {path : String}
    {u : String × List Schema} (hq : (q.fields.map Field.name).Nodup) :
    u ∈ fieldUnions path (p.merge q).fields ↔
      (∃ f ∈ p.fields, ∃ g ∈ q.fields, g.name = f.name ∧
        u ∈ (f.type.merge g.type).unions (fieldPath path f.name)) ∨
      (∃ f ∈ p.fields, (∀ g ∈ q.fields, g.name ≠ f.name) ∧
        u ∈ f.type.unions (fieldPath path f.name)) ∨
      ∃ g ∈ q.fields, (∀ f ∈ p.fields, f.name ≠ g.name) ∧
        u ∈ g.type.unions (fieldPath path g.name) := by
  have counts : ∀ (name : String) (t : Schema) (observed total : Int),
      (Field.ofCounts name t observed total).type.unions
        (fieldPath path (Field.ofCounts name t observed total).name) =
          t.unions (fieldPath path name) := fun name t observed total => by
    rw [Field.ofCounts_name, unions_ofCounts_type]
  rw [mem_fieldUnions_iff]
  constructor
  · rintro ⟨h, hh, hu⟩
    cases mergedField_of_mem hh with
    | both hf hg hn => exact .inl ⟨_, hf, _, hg, hn, by rwa [counts] at hu⟩
    | left hf hn => exact .inr (.inl ⟨_, hf, hn, by rwa [counts] at hu⟩)
    | right hg hn => exact .inr (.inr ⟨_, hg, hn, by rwa [counts] at hu⟩)
  · rintro (⟨f, hf, g, hg, hn, hu⟩ | ⟨f, hf, hn, hu⟩ | ⟨g, hg, hn, hu⟩)
    · exact ⟨_, (MergedField.both hf hg hn).mem hq, by rwa [counts]⟩
    · exact ⟨_, (MergedField.left hf hn).mem hq, by rwa [counts]⟩
    · exact ⟨_, (MergedField.right hg hn).mem hq, by rwa [counts]⟩

/-- Conflicts account for the unions inside of objects, if those of the fields do. -/
theorem ObjectPart.accounts_merge {p q : ObjectPart} {path : String}
    (hq : (q.fields.map Field.name).Nodup)
    (ih : ∀ f ∈ p.fields, ∀ g ∈ q.fields, ∀ path,
      Accounts (f.type.unions path ++ g.type.unions path) (f.type.conflicts path g.type)
        ((f.type.merge g.type).unions path)) :
    Accounts (objectUnions path (some p) ++ objectUnions path (some q))
      (objectConflicts path (some p) (some q)) (objectUnions path (some (p.merge q))) := by
  show Accounts (fieldUnions path p.fields ++ fieldUnions path q.fields)
    (fieldConflicts path q.fields p.fields) (fieldUnions path (p.merge q).fields)
  have hmem := fun u => @mem_fieldUnions_merge_iff p q path u hq
  refine ⟨fun u hu => ?_, fun v hv => ?_, fun c hc => ?_⟩
  · rcases (hmem u).mp hu with ⟨f, hf, g, hg, hn, hu⟩ | ⟨f, hf, -, hu⟩ | ⟨g, hg, -, hu⟩
    · rcases (ih f hf g hg _).reported u hu with ⟨v, hv, e⟩ | ⟨c, hc, e⟩
      · rcases List.mem_append.mp hv with hv | hv
        · exact .inl ⟨v, List.mem_append_left _ (mem_fieldUnions_iff.mpr ⟨f, hf, hv⟩), e⟩
        · rw [← hn] at hv
          exact .inl ⟨v, List.mem_append_right _ (mem_fieldUnions_iff.mpr ⟨g, hg, hv⟩), e⟩
      · have hlast : lastField? q.fields f.name = some g := hn ▸ lastField?_eq_some hq hg
        exact .inr ⟨c, mem_fieldConflicts_iff.mpr ⟨f, hf, g, hlast, hc⟩, e⟩
    · exact .inl ⟨u, List.mem_append_left _ (mem_fieldUnions_iff.mpr ⟨f, hf, hu⟩), rfl⟩
    · exact .inl ⟨u, List.mem_append_right _ (mem_fieldUnions_iff.mpr ⟨g, hg, hu⟩), rfl⟩
  · rcases List.mem_append.mp hv with hv | hv
    · obtain ⟨f, hf, hv⟩ := mem_fieldUnions_iff.mp hv
      rcases exists_or_forall_ne q.fields f.name with ⟨g, hg, hn⟩ | hnone
      · obtain ⟨u, hu, e⟩ := (ih f hf g hg _).kept v (List.mem_append_left _ hv)
        exact ⟨u, (hmem u).mpr (.inl ⟨f, hf, g, hg, hn, hu⟩), e⟩
      · exact ⟨v, (hmem v).mpr (.inr (.inl ⟨f, hf, hnone, hv⟩)), rfl, List.Subset.refl _⟩
    · obtain ⟨g, hg, hv⟩ := mem_fieldUnions_iff.mp hv
      rcases exists_or_forall_ne p.fields g.name with ⟨f, hf, hn⟩ | hnone
      · rw [← hn] at hv
        obtain ⟨u, hu, e⟩ := (ih f hf g hg _).kept v (List.mem_append_right _ hv)
        exact ⟨u, (hmem u).mpr (.inl ⟨f, hf, g, hg, hn.symm, hu⟩), e⟩
      · exact ⟨v, (hmem v).mpr (.inr (.inr ⟨g, hg, hnone, hv⟩)), rfl, List.Subset.refl _⟩
  · obtain ⟨f, hf, g, hlast, hc⟩ := mem_fieldConflicts_iff.mp hc
    obtain ⟨hg, hn⟩ := mem_of_lastField? hlast
    obtain ⟨hgenuine, u, hu, e⟩ := (ih f hf g hg _).genuine c hc
    exact ⟨hgenuine, u, (hmem u).mpr (.inl ⟨f, hf, g, hg, hn, hu⟩), e⟩

/-! ### Merged schemas -/

/-- What is missing on one side has no unions and meets no conflicts. -/
theorem accounts_option {α : Type} {f : Option α → List (String × List Schema)}
    {conflicts : Option α → Option α → List Conflict} {op : α → α → α} {x y : Option α}
    (hf : f none = []) (hleft : ∀ y, conflicts none y = []) (hright : ∀ x, conflicts x none = [])
    (h : ∀ p q, x = some p → y = some q →
      Accounts (f (some p) ++ f (some q)) (conflicts (some p) (some q)) (f (some (op p q)))) :
    Accounts (f x ++ f y) (conflicts x y) (f (Option.merge op x y)) := by
  cases x with
  | none =>
      rw [Option.merge_none_left, hf, hleft]
      exact .refl _
  | some p =>
      cases y with
      | none =>
          rw [Option.merge_none_right, hf, hright, List.append_nil]
          exact .refl _
      | some q => exact h p q rfl rfl

section
variable {object : ObjectPart → Prop} {of_merge : ∀ {p q}, object p → object q → object (p.merge q)}

/-- **The conflicts of a merge account for its unions.** -/
theorem accounts_merge (hobject : ∀ p, object p → (p.fields.map Field.name).Nodup) {a b : Schema}
    (ha : a.WellFormed (.canonical object of_merge)) (hb : b.WellFormed (.canonical object of_merge))
    (path : String) :
    Accounts (a.unions path ++ b.unions path) (a.conflicts path b) ((a.merge b).unions path) := by
  induction a using Schema.inductionOnParts generalizing b path with
  | step a ihe ihf =>
      have harray : Accounts (arrayUnions path a.parts.array ++ arrayUnions path b.parts.array)
          (arrayConflicts path a.parts.array b.parts.array)
          (arrayUnions path (a.parts.merge b.parts).array) := by
        refine accounts_option rfl (fun _ => rfl) (fun x => by cases x <;> rfl) fun p q hp hq => ?_
        have hpw := ha.parts.array hp
        have hqw := hb.parts.array hq
        exact ArrayPart.accounts_merge hpw.1 hqw.1 (ihe p hp hpw.2 hqw.2 _)
      have hobjects : Accounts (objectUnions path a.parts.object ++ objectUnions path b.parts.object)
          (objectConflicts path a.parts.object b.parts.object)
          (objectUnions path (a.parts.merge b.parts).object) := by
        refine accounts_option rfl (fun _ => rfl) (fun x => by cases x <;> rfl) fun p q hp hq => ?_
        have hpw := ha.parts.object hp
        have hqw := hb.parts.object hq
        refine ObjectPart.accounts_merge (hobject q hqw.1) fun f hf g hg path => ?_
        exact ihf p hp f hf (fieldsWellFormed_iff.mp hpw.2 f hf)
          (fieldsWellFormed_iff.mp hqw.2 g hg) path
      have hown := Parts.accounts_conflictBetween a.parts b.parts path
      rw [merge_eq, Parts.unions_assemble, ha.unions_eq, hb.unions_eq, Schema.conflicts_eq]
      refine (hown.append (harray.append hobjects)).of_mem_iff (fun u => ?_) fun c => ?_ <;>
        · simp only [List.mem_append]
          exact iff_of_eq (by ac_rfl)

end

end SampleSchema
