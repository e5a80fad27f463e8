import SampleSchema.Proofs.RootName
import SampleSchema.Proofs.Singulars

/-!
# Paths told apart by their names

The last candidate for the name of an object is its path joined by underscores.  No word holds an
underscore, so the joined name gives the path back (`eq_of_intercalate_eq`), and it is a candidate at
this path only (`words_eq_of_mem_candidates`).  Hence naming is stuck at an object only if an object
of another structure, met before, has the same path (`exists_same_words_of_stuck`).
-/

namespace SampleSchema
open Names

/-! ### Joined names -/

/-- Words joined by underscores are told apart again. -/
theorem eq_of_intercalate_eq {vs ws : List String} (hvs : ∀ v ∈ vs, IsAlphanumeric v)
    (hws : ∀ w ∈ ws, IsAlphanumeric w) (hv : vs ≠ []) (hw : ws ≠ [])
    (h : "_".intercalate vs = "_".intercalate ws) : vs = ws := by
  have split : ∀ us : List String, (∀ u ∈ us, IsAlphanumeric u) → us ≠ [] →
      ("_".intercalate us).toList.splitOn '_' = us.map String.toList := fun us hus hne => by
    rw [String.toList_intercalate]
    refine List.splitOn_intercalate '_' (fun l hl => ?_) fun e => hne (List.map_eq_nil_iff.mp e)
    obtain ⟨u, hu, rfl⟩ := List.mem_map.mp hl
    exact (hus u hu).underscore_notMem
  have hlists : vs.map String.toList = ws.map String.toList := by
    rw [← split vs hvs hv, ← split ws hws hw, h]
  exact (List.map_inj_right fun _ _ => String.toList_inj.mp).mp hlists

theorem underscore_mem_intercalate (root : String) {words : List String} (h : words ≠ []) :
    '_' ∈ ("_".intercalate (root :: words)).toList := by
  obtain ⟨w, ws, rfl⟩ := List.exists_cons_of_ne_nil h
  rw [String.toList_intercalate, List.map_cons, List.map_cons, List.intercalate_cons_cons]
  exact List.mem_append_left _ (List.mem_append_right _ (List.mem_singleton_self _))

theorem exists_of_mem_endsOfPath {name : String} : ∀ {ws : List String} {behind : String},
    (∀ w ∈ ws, IsAlphanumeric w) → IsAlphanumeric behind → name ∈ endsOfPath behind ws →
      ∃ w ∈ ws, ∃ rest, IsAlphanumeric rest ∧ name = w ++ rest
  | [], _, _, _, h => by cases h
  | w :: ws, behind, hws, hbehind, h => by
      obtain ⟨hw, hws⟩ := List.forall_mem_cons.mp hws
      rcases List.mem_cons.mp h with rfl | h
      · exact ⟨w, List.mem_cons_self, behind, hbehind, rfl⟩
      · obtain ⟨v, hv, rest⟩ := exists_of_mem_endsOfPath hws (hw.append hbehind) h
        exact ⟨v, List.mem_cons_of_mem _ hv, rest⟩

/-- A candidate is the path joined by underscores, or it is the root name or a word of the path with
letters and digits after it. -/
theorem candidates_cases {root name : String} {ws : List String} (hws : ∀ w ∈ ws, IsAlphanumeric w)
    (h : name ∈ candidates root ws) : ws ≠ [] ∧ name = "_".intercalate (root :: ws) ∨
      ∃ w ∈ root :: ws, ∃ rest, IsAlphanumeric rest ∧ name = w ++ rest := by
  rw [candidates] at h
  split at h
  · exact .inr ⟨root, List.mem_cons_self, "", by decide, by rw [List.mem_singleton.mp h,
      String.append_empty]⟩
  rename_i hne
  rcases List.mem_append.mp h with h | h
  · refine .inr ?_
    rcases List.mem_append.mp h with h | h
    · obtain ⟨w, hw, rest⟩ := exists_of_mem_endsOfPath
        (fun w hw => hws w (List.mem_reverse.mp hw)) (by decide) h
      exact ⟨w, List.mem_cons_of_mem _ (List.mem_reverse.mp hw), rest⟩
    · split at h
      · cases h
      · exact ⟨root, List.mem_cons_self, String.join ws, .join hws, List.mem_singleton.mp h⟩
  · exact .inl ⟨fun e => hne (List.isEmpty_iff.mpr e), List.mem_singleton.mp h⟩

/-- What holds of the words that paths are made of holds of the words of the paths to all objects. -/
theorem forall_words_of_mem {P : String → Prop} {root : String} (hitem : P (root ++ "Item"))
    (hsingular : ∀ w, P w → P (singular w)) (htype : ∀ name, P (typeName name)) {t : Schema}
    {p : Occurrence} (hp : p ∈ t.occurrences root .top) : ∀ w ∈ p.words, P w := by
  refine Schema.path_of_mem_occurrences (P := fun here => ∀ w ∈ here.words, P w)
    ⟨fun {here} h => ?_, fun {here name} h w hw => ?_⟩ t (fun _ hw => by cases hw) hp
  · show ∀ w ∈ elementWords root here.words, P w
    rw [elementWords]
    cases hlast : here.words.getLast? with
    | none => exact List.forall_mem_singleton.mpr hitem
    | some v =>
        refine fun w hw => (List.mem_append.mp hw).elim (fun hw => ?_) fun hw => ?_
        · exact h w (List.dropLast_subset _ hw)
        · rw [List.mem_singleton.mp hw]
          exact hsingular v (h v (List.mem_of_getLast? hlast))
  · rcases List.mem_append.mp hw with hw | hw
    · exact h w hw
    · rw [List.mem_singleton.mp hw]
      exact htype name

section
variable {root : String} {vs ws : List String} (hroot : IsAlphanumeric root)
include hroot

/-- The only candidate with an underscore is the path joined by underscores. -/
theorem eq_intercalate_of_mem_candidates (hws : ∀ w ∈ ws, IsAlphanumeric w) {name : String}
    (h : name ∈ candidates root ws) (hname : '_' ∈ name.toList) :
    name = "_".intercalate (root :: ws) := by
  rcases candidates_cases hws h with ⟨-, h⟩ | ⟨w, hw, rest, hrest, rfl⟩
  · exact h
  · have hword : IsAlphanumeric w := List.forall_mem_cons.mpr ⟨hroot, hws⟩ w hw
    exact absurd hname (hword.append hrest).underscore_notMem

/-- A path joined by underscores is a candidate at that path only. -/
theorem words_eq_of_mem_candidates (hvs : ∀ v ∈ vs, IsAlphanumeric v)
    (hws : ∀ w ∈ ws, IsAlphanumeric w) (hne : vs ≠ [])
    (h : "_".intercalate (root :: vs) ∈ candidates root ws) : ws = vs := by
  have heq := eq_intercalate_of_mem_candidates hroot hws h (underscore_mem_intercalate root hne)
  have hcons := eq_of_intercalate_eq (List.forall_mem_cons.mpr ⟨hroot, hvs⟩)
    (List.forall_mem_cons.mpr ⟨hroot, hws⟩) (List.cons_ne_nil _ _) (List.cons_ne_nil _ _) heq
  exact (List.cons.inj hcons).2.symm

/-- The words of the paths to objects have letters and digits only. -/
theorem isAlphanumeric_of_mem_words {t : Schema} {p : Occurrence}
    (hp : p ∈ t.occurrences root .top) : ∀ w ∈ p.words, IsAlphanumeric w :=
  forall_words_of_mem (hroot.append (by decide)) (fun _ hw => hw.singular) isAlphanumeric_typeName hp

end

/-! ### Where naming is stuck -/

theorem intercalate_mem_candidates (root : String) {words : List String} (h : words ≠ []) :
    "_".intercalate (root :: words) ∈ candidates root words := by
  rw [candidates, if_neg (by rwa [List.isEmpty_iff])]
  exact List.mem_append_right _ (List.mem_singleton_self _)

section
variable {object : ObjectPart → Prop}
  {of_merge : ∀ {p q}, object p → object q → object (p.merge q)}
  {rootName : String} {t : Schema}

/-- The only object at the end of the empty path is the object at the root. -/
theorem exists_object_of_words_eq_nil (ht : t.WellFormed (.canonical object of_merge))
    {root : String} {p : Occurrence} (hp : p ∈ t.occurrences root .top) (h : p.words = []) :
    ∃ o, t.parts.object = some o ∧ p.signature = o.toSchema.signature := by
  have hkept : WordPath.Inherited root fun here => here.words ≠ [] := by
    refine ⟨fun {here} _ => ?_, fun {here name} _ => List.concat_ne_nil _ _⟩
    show elementWords root here.words ≠ []
    rw [elementWords]
    split
    · exact List.cons_ne_nil _ _
    · exact List.concat_ne_nil _ _
  cases Schema.occursIn_of_mem ht hp with
  | own ho => exact ⟨_, ho, rfl⟩
  | field _ _ hp =>
      exact absurd h (Schema.path_of_mem_occurrences hkept _ (List.concat_ne_nil _ _) hp)
  | element _ hp =>
      exact absurd h (Schema.path_of_mem_occurrences hkept _ (List.cons_ne_nil _ _) hp)

/-- Naming is never stuck at the object at the root. -/
theorem words_ne_nil_of_stuck (ht : t.WellFormed (.canonical object of_merge))
    {p : Occurrence} (hp : p ∈ t.occurrences (typeName rootName) .top) {ps : List Occurrence}
    {n : Names} (hs : Steps ps (reserved rootName t) n) (h : Stuck p n) : p.words ≠ [] := by
  intro hnil
  obtain ⟨o, ho, hsig⟩ := exists_object_of_words_eq_nil ht hp hnil
  have hmem : n.root ∈ candidates n.root p.words := by
    rw [hnil]
    exact List.mem_singleton_self _
  obtain ⟨k, howner, hk⟩ := exists_owner_of_not_isFree (h.taken _ hmem)
  rw [hs.root_eq, root_reserved, owner?_root_of_steps ht ho hs] at howner
  exact hk (by rw [hsig, Option.some.inj howner])

/-- Where naming is stuck, an object before has the same path and another structure. -/
theorem exists_same_words_of_stuck (ht : t.WellFormed (.canonical object of_merge))
    {before after : List Occurrence} {p : Occurrence} {n : Names}
    (he : t.occurrences (typeName rootName) .top = before ++ p :: after)
    (hs : Steps before (reserved rootName t) n) (hp : Stuck p n) :
    ∃ q ∈ before, q.words = p.words ∧ q.signature ≠ p.signature := by
  have hroot : IsAlphanumeric (typeName rootName) := isAlphanumeric_typeName rootName
  have hmem : p ∈ t.occurrences (typeName rootName) .top :=
    he ▸ List.mem_append_right _ List.mem_cons_self
  have hne : p.words ≠ [] := words_ne_nil_of_stuck ht hmem hs hp
  -- another structure owns the joined name, which no object of another path has as a candidate
  obtain ⟨k, howner, hk⟩ :=
    exists_owner_of_not_isFree (hp.taken _ (intercalate_mem_candidates n.root hne))
  rw [hs.root_eq, root_reserved] at howner
  rcases hs.owner?_cases howner with howner | ⟨q, hq, hsig, hc⟩
  · have heq : "_".intercalate (typeName rootName :: p.words) = typeName rootName :=
      eq_root_of_reserved howner
    exact absurd (heq ▸ underscore_mem_intercalate _ hne) hroot.underscore_notMem
  · rw [root_reserved] at hc
    refine ⟨q, hq, ?_, hsig ▸ hk⟩
    exact words_eq_of_mem_candidates hroot (isAlphanumeric_of_mem_words hroot hmem)
      (isAlphanumeric_of_mem_words hroot (he ▸ List.mem_append_left _ hq)) hne hc

/-- **Naming fails at an object whose path another one shares**, of another structure. -/
theorem Schema.collision_of_named (ht : t.WellFormed (.canonical object of_merge))
    {c : NameCollision} (h : t.named rootName = .error c) : ∃ p ∈ t.occurrences (typeName rootName) .top,
      ∃ q ∈ t.occurrences (typeName rootName) .top, q.words = p.words ∧
        q.signature ≠ p.signature ∧ c = p.collision (typeName rootName) := by
  obtain ⟨before, p, after, n, he, hs, hp, rfl⟩ := Schema.stuck_of_named h
  obtain ⟨q, hq, hwords, hsig⟩ := exists_same_words_of_stuck ht he hs hp
  rw [he]
  exact ⟨p, List.mem_append_right _ List.mem_cons_self, q, List.mem_append_left _ hq, hwords, hsig,
    rfl⟩

end

end SampleSchema
