import Mathlib.Data.List.Perm.Subperm
import SampleSchema.Proofs.MergeConflicts
import SampleSchema.Proofs.Positions

/-!
# Where schemas clash

A merge compares numbers of parts, but what it finds are clashes: at a position that the two schemas
have in common, the parts on each side have a bucket that those on the other lack
(`Parts.conflict_iff_clash`).

`Records` says that conflicts are one for each clash of two schemas in some region, and that those
further inside come first; the regions of a schema are its elements, its fields and its top, and the
records of disjoint regions are put one after the other (`Records.append`).
-/

namespace SampleSchema

/-! ### Buckets of merged parts -/

theorem length_lt_iff_of_subset {α : Type} {l m : List α} (hl : l.Nodup) (hm : m.Nodup)
    (h : l ⊆ m) : l.length < m.length ↔ ¬ m ⊆ l := by
  constructor
  · intro hlt hml
    exact Nat.not_lt.mpr (hm.subperm hml).length_le hlt
  · intro hml
    refine Nat.lt_of_not_le fun hle => hml ?_
    exact ((hl.subperm h).perm_of_length_le hle).symm.subset

namespace Parts
variable (p q : Parts)

/-- Whether the parts on each side have a bucket that those on the other lack. -/
def Clash (p q : Parts) : Prop :=
  ¬ bucketsOf p.toList ⊆ bucketsOf q.toList ∧ ¬ bucketsOf q.toList ⊆ bucketsOf p.toList

theorem clash_comm : p.Clash q ↔ q.Clash p := and_comm

theorem mem_bucketsOf_merge_iff {b : Option Bucket} : b ∈ bucketsOf (p.merge q).toList ↔
    b ∈ bucketsOf p.toList ∨ b ∈ bucketsOf q.toList := by
  simp only [bucketsOf_toList, isSome_variant?_merge, List.mem_map, List.mem_filter,
    Bool.or_eq_true, and_or_left, or_and_right, exists_or]

theorem bucketsOf_merge_subset_iff {bs : List (Option Bucket)} :
    bucketsOf (p.merge q).toList ⊆ bs ↔ bucketsOf p.toList ⊆ bs ∧ bucketsOf q.toList ⊆ bs := by
  simp only [List.subset_def, mem_bucketsOf_merge_iff, or_imp, forall_and]

/-- Merging adds parts to one side exactly when the other has a bucket that it lacks. -/
theorem length_lt_merge_iff :
    (p.toList.length < (p.merge q).toList.length ↔ ¬ bucketsOf q.toList ⊆ bucketsOf p.toList) ∧
    (q.toList.length < (p.merge q).toList.length ↔ ¬ bucketsOf p.toList ⊆ bucketsOf q.toList) := by
  have hlength : ∀ r : Parts, (bucketsOf r.toList).length = r.toList.length :=
    fun _ => List.length_map _
  obtain ⟨hp, hq⟩ := bucketsOf_toList_subset_merge p q
  have hm := (p.merge q).nodup_bucketsOf_toList.1
  rw [← hlength p, ← hlength q, ← hlength (p.merge q),
    length_lt_iff_of_subset p.nodup_bucketsOf_toList.1 hm hp,
    length_lt_iff_of_subset q.nodup_bucketsOf_toList.1 hm hq,
    bucketsOf_merge_subset_iff, bucketsOf_merge_subset_iff]
  exact ⟨by simp, by simp⟩

/-- **A conflict is found exactly where parts clash.** -/
theorem conflict_iff_clash : 1 < (p.merge q).toList.length ∧
    max p.toList.length q.toList.length < (p.merge q).toList.length ↔ p.Clash q := by
  obtain ⟨hp, hq⟩ := length_lt_merge_iff p q
  rw [Nat.max_lt, hp, hq]
  refine ⟨fun h => ⟨h.2.2, h.2.1⟩, fun h => ⟨?_, h.2, h.1⟩⟩
  -- the side on the left has a part, and the merge has one more
  have hlt : p.toList.length < (p.merge q).toList.length := hp.mpr h.2
  have hpos : p.toList ≠ [] := fun e => h.1 (by simp [e, bucketsOf])
  have := List.length_pos_iff.mpr hpos
  omega

end Parts

/-! ### Clashes and conflicts by position -/

namespace Parts

/-- Whether parts clash at a position that both have. -/
def ClashAt (p q : Parts) (pos : Position) : Prop :=
  ∃ r s, p.at? pos = some r ∧ q.at? pos = some s ∧ r.Clash s

/-- The conflict at a position of merged parts: its path and the kinds of the parts there. -/
def conflictAt? (m : Parts) (top : String) (pos : Position) : Option Conflict :=
  (m.at? pos).map fun r => ⟨Position.path top pos, r.toList.map Schema.kind⟩

variable {p q r s : Parts} {i : Inward}

theorem clashAt_comm {pos : Position} : p.ClashAt q pos ↔ q.ClashAt p pos :=
  ⟨fun ⟨r, s, hr, hs, h⟩ => ⟨s, r, hs, hr, (clash_comm r s).mp h⟩,
    fun ⟨r, s, hr, hs, h⟩ => ⟨s, r, hs, hr, (clash_comm r s).mp h⟩⟩

theorem clashAt_nil : p.ClashAt q [] ↔ p.Clash q := by
  simp [ClashAt, at?]

theorem clashAt_cons {pos : Position} : p.ClashAt q (i :: pos) ↔
    ∃ r s, p.inside? i = some r ∧ q.inside? i = some s ∧ r.ClashAt s pos := by
  simp only [ClashAt, at?_cons]
  constructor
  · rintro ⟨t, u, ⟨r, hr, ht⟩, ⟨s, hs, hu⟩, h⟩
    exact ⟨r, s, hr, hs, t, u, ht, hu, h⟩
  · rintro ⟨r, s, hr, hs, t, u, ht, hu, h⟩
    exact ⟨t, u, ⟨r, hr, ht⟩, ⟨s, hs, hu⟩, h⟩

theorem conflictAt?_cons {top : String} {pos : Position} (h : p.inside? i = some q) :
    p.conflictAt? top (i :: pos) = q.conflictAt? (i.path top) pos := by
  rw [conflictAt?, conflictAt?, at?, h, Option.bind_some, Position.path_cons]

end Parts

/-- Without arrays on both sides there are no conflicts between arrays. -/
theorem Parts.arrayConflicts_of_missing (top : String) {p q : Parts}
    (h : p.inside? .element = none ∨ q.inside? .element = none) :
    arrayConflicts top p.array q.array = [] := by
  cases ha : p.array with
  | none => rfl
  | some a =>
      cases hb : q.array with
      | none => rfl
      | some b =>
          have hempty : a.empty = true ∨ b.empty = true := by simpa [inside?, ha, hb] using h
          rw [arrayConflicts, if_pos (by simpa using hempty)]

/-- Without objects on both sides there are no conflicts between objects. -/
theorem Parts.objectConflicts_of_missing (top : String) {p q : Parts}
    (h : p.object = none ∨ q.object = none) : objectConflicts top p.object q.object = [] := by
  rcases h with h | h
  · rw [h]
    rfl
  · rw [h]
    cases p.object <;> rfl

/-- Whether conflicts, under any path of the top, are those of the merge of two schemas at the given
positions: the positions in a region where the schemas clash, the inner ones first. -/
structure Records (p q : Parts) (region : Position → Prop) (conflicts : String → List Conflict)
    (ps : List Position) : Prop where
  mem_iff    : ∀ pos, pos ∈ ps ↔ region pos ∧ p.ClashAt q pos
  innerFirst : ps.Pairwise fun inner outer => ¬ inner <+: outer
  eq_map     : ∀ top, (conflicts top).map some = ps.map ((p.merge q).conflictAt? top)

namespace Records
variable {p q r s : Parts} {here there : Position → Prop} {cs ds : String → List Conflict}
  {ps qs : List Position}

/-- A position is recorded once. -/
theorem nodup (h : Records p q here cs ps) : ps.Nodup := by
  refine List.Pairwise.imp ?_ h.innerFirst
  rintro pos _ hne rfl
  exact hne (List.prefix_refl pos)

/-- Nothing is recorded where nothing clashes. -/
theorem nil (h : ∀ pos, here pos → ¬ p.ClashAt q pos) : Records p q here (fun _ => []) [] :=
  ⟨fun pos => by simpa using h pos, .nil, fun _ => rfl⟩

theorem congr (h : Records p q here cs ps)
    (hregion : ∀ pos, p.ClashAt q pos → (here pos ↔ there pos)) (hc : ∀ top, ds top = cs top) :
    Records p q there ds ps := by
  refine ⟨fun pos => (h.mem_iff pos).trans (and_congr_left (hregion pos)), h.innerFirst,
    fun top => ?_⟩
  rw [hc, h.eq_map]

theorem append (h : Records p q here cs ps) (h' : Records p q there ds qs)
    (hdisj : ∀ pos pos', here pos → there pos' → ¬ pos <+: pos') :
    Records p q (fun pos => here pos ∨ there pos) (fun top => cs top ++ ds top) (ps ++ qs) := by
  refine ⟨fun pos => ?_, ?_, fun top => ?_⟩
  · rw [List.mem_append, h.mem_iff, h'.mem_iff, or_and_right]
  · refine List.pairwise_append.mpr ⟨h.innerFirst, h'.innerFirst, fun pos hp pos' hq => ?_⟩
    exact hdisj pos pos' ((h.mem_iff pos).mp hp).1 ((h'.mem_iff pos').mp hq).1
  · rw [List.map_append, List.map_append, h.eq_map, h'.eq_map]

/-- What is recorded one step inside. -/
theorem inside {i : Inward} (hr : p.inside? i = some r) (hs : q.inside? i = some s)
    (hm : (p.merge q).inside? i = some (r.merge s)) (h : Records r s (fun _ => True) cs ps) :
    Records p q (fun pos => pos.head? = some i) (fun top => cs (i.path top))
      (ps.map fun pos => i :: pos) := by
  refine ⟨fun pos => ?_, ?_, fun top => ?_⟩
  · rw [List.mem_map]
    constructor
    · rintro ⟨pos, hpos, rfl⟩
      exact ⟨rfl, Parts.clashAt_cons.mpr ⟨r, s, hr, hs, ((h.mem_iff pos).mp hpos).2⟩⟩
    · rintro ⟨hhead, hclash⟩
      obtain ⟨pos, rfl⟩ := List.head?_eq_some_iff.mp hhead
      obtain ⟨r', s', hr', hs', hclash⟩ := Parts.clashAt_cons.mp hclash
      cases hr.symm.trans hr'
      cases hs.symm.trans hs'
      exact ⟨pos, (h.mem_iff pos).mpr ⟨trivial, hclash⟩, rfl⟩
  · rw [List.pairwise_map]
    exact h.innerFirst.imp fun hne hpre => hne (List.prefix_cons_inj i |>.mp hpre)
  · rw [h.eq_map, List.map_map]
    exact List.map_congr_left fun pos _ => (Parts.conflictAt?_cons hm).symm

/-- The conflict of a position itself is recorded, if there is one. -/
theorem own (p q : Parts) :
    ∃ ps, Records p q (fun pos => pos = []) (fun top => conflictBetween top p q) ps := by
  by_cases h : p.Clash q
  · refine ⟨[[]], fun pos => ?_, List.pairwise_singleton .., fun top => ?_⟩
    · rw [List.mem_singleton]
      refine ⟨?_, And.left⟩
      rintro rfl
      exact ⟨rfl, Parts.clashAt_nil.mpr h⟩
    · rw [conflictBetween, if_pos ((Parts.conflict_iff_clash p q).mpr h)]
      rfl
  · refine ⟨[], (nil ?_).congr (fun _ _ => Iff.rfl) fun top => ?_⟩
    · rintro _ rfl hclash
      exact h (Parts.clashAt_nil.mp hclash)
    · rw [conflictBetween, if_neg fun hc => h ((Parts.conflict_iff_clash p q).mp hc)]

end Records

end SampleSchema
