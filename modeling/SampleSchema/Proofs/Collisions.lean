import SampleSchema.Proofs.WordPaths

/-!
# When no name is left

Where the fields of every object have names of distinct forms, a path that leads through no array
ends at one object only (`eq_of_words_eq`).  So naming can fail only at a path that leads through an
array and that objects of several structures share: the elements of an array in an array have the
path of the elements of the outer one, and those of an array may have the path of the field next to
it (`no_collision_of_run`, `collision_of_nestedSample`).  In general it fails only at an object whose
path an object of another structure has, and it tells that path (`named_unless_path_shared`).
-/

namespace SampleSchema
open Names

/-! ### Fields of distinct forms -/

/-- The names that types get from the fields of an object. -/
def Schema.forms : Schema → List String
  | .object _ _ fs => fs.map fun f => typeName f.name
  | _ => []

/-- Whether the fields of every object have distinct forms. -/
def Schema.HasDistinctForms (t : Schema) : Prop := ∀ u ∈ t.objects, u.forms.Nodup

instance (t : Schema) : Decidable t.HasDistinctForms :=
  inferInstanceAs (Decidable (∀ u ∈ t.objects, u.forms.Nodup))

section
variable {t : Schema} {o : ObjectPart}

/-- No two fields of an object have the same form. -/
theorem Schema.HasDistinctForms.nodup (h : t.HasDistinctForms) (ho : t.parts.object = some o) :
    (o.fields.map fun f => typeName f.name).Nodup :=
  h _ (Schema.toSchema_mem_objects t ho)

/-- The forms are distinct inside of a field too. -/
theorem Schema.HasDistinctForms.field (h : t.HasDistinctForms) (ho : t.parts.object = some o)
    {f : Field Schema} (hf : f ∈ o.fields) : f.type.HasDistinctForms := by
  intro u hu
  have hinside : u ∈ o.toSchema.objects :=
    List.mem_append_left _ (mem_objectsOfFields_iff.mpr ⟨f, hf, hu⟩)
  exact h u (Schema.mem_objects_trans hinside t (Schema.toSchema_mem_objects t ho))

end

/-! ### Paths through no array -/

section
variable {root : String} {t : Schema} {here : WordPath} {p : Occurrence}

/-- The paths to the elements of an array lead through an array. -/
theorem inArray_of_mem (hp : p ∈ t.occurrences root here) (h : here.inArray = true) :
    p.inArray = true :=
  Schema.path_of_mem_occurrences (P := fun x => x.inArray = true)
    ⟨fun _ => rfl, fun h => h⟩ t h hp

/-- A path through no array is continued by more words. -/
theorem isPrefix_of_mem (hp : p ∈ t.occurrences root here) (h : p.inArray = false) :
    here.words <+: p.words := by
  have hkept : WordPath.Inherited root fun x => x.inArray = true ∨ here.words <+: x.words :=
    ⟨fun _ => .inl rfl, fun h => h.imp_right fun h => h.trans (List.prefix_append _ _)⟩
  rcases Schema.path_of_mem_occurrences hkept t (.inr (List.prefix_refl _)) hp with harray | hwords
  · rw [h] at harray
    cases harray
  · exact hwords

theorem eq_of_isPrefix {α : Type} {ws l : List α} {a b : α} (ha : ws ++ [a] <+: l)
    (hb : ws ++ [b] <+: l) : a = b := by
  have hlen : (ws ++ [a]).length = (ws ++ [b]).length := by simp
  have heq := (List.prefix_of_prefix_length_le ha hb (Nat.le_of_eq hlen)).eq_of_length hlen
  exact List.singleton_inj.mp (List.append_cancel_left heq)

/-- Where forms are distinct, a path through no array ends at one object only. -/
theorem eq_of_words_eq {k : Conditions} (ht : t.WellFormed k) (hforms : t.HasDistinctForms)
    {q : Occurrence} (hp : p ∈ t.occurrences root here) (hq : q ∈ t.occurrences root here)
    (hpa : p.inArray = false) (hqa : q.inArray = false) (h : p.words = q.words) : p = q := by
  induction t using Schema.inductionOnParts generalizing here with
  | step t _ ihf =>
      -- an object in a field has more words in its path than the object of the field
      have longer : ∀ {name : String} {u : Schema} {r : Occurrence},
          r ∈ u.occurrences root (here.field name) → r.inArray = false → r.words ≠ here.words := by
        intro name u r hr hra e
        have hlen := (isPrefix_of_mem hr hra).length_le
        rw [e, WordPath.field, List.length_append, List.length_singleton] at hlen
        omega
      cases Schema.occursIn_of_mem ht hp with
      | element _ hp => rw [inArray_of_mem hp rfl] at hpa; cases hpa
      | own ho =>
          cases Schema.occursIn_of_mem ht hq with
          | element _ hq => rw [inArray_of_mem hq rfl] at hqa; cases hqa
          | own ho' => rw [Option.some.inj (ho.symm.trans ho')]
          | field _ _ hq => exact absurd h.symm (longer hq hqa)
      | @field o f _ ho hf hp =>
          cases Schema.occursIn_of_mem ht hq with
          | element _ hq => rw [inArray_of_mem hq rfl] at hqa; cases hqa
          | own _ => exact absurd h (longer hp hpa)
          | @field o' g _ ho' hg hq =>
              cases ho.symm.trans ho'
              -- the first word after the path of the object is the form of the field
              have hform : typeName f.name = typeName g.name :=
                eq_of_isPrefix (h ▸ isPrefix_of_mem hp hpa) (isPrefix_of_mem hq hqa)
              obtain rfl := List.inj_on_of_nodup_map (hforms.nodup ho) hf hg hform
              exact ihf o ho f hf (fieldsWellFormed_iff.mp (ht.parts.object ho).2 f hf)
                (hforms.field ho hf) hp hq

end

/-! ### When naming succeeds -/

/-- Whether no object in an array shares its path with an object of another structure. -/
def Schema.SeparatesArrays (root : String) (t : Schema) : Prop :=
  ∀ p ∈ t.occurrences root .top, p.inArray = true →
    ∀ q ∈ t.occurrences root .top, q.words = p.words → q.signature = p.signature

/-- Paths are not shared where all of them are distinct. -/
theorem Schema.separatesArrays_of_nodup {root : String} {t : Schema}
    (h : ((t.occurrences root .top).map fun p => p.words).Nodup) : t.SeparatesArrays root :=
  fun _ hp _ _ hq hwords => by rw [List.inj_on_of_nodup_map h hq hp hwords]

/-- Naming succeeds where objects of one path have one structure. -/
theorem Schema.exists_named_of_words {object : ObjectPart → Prop}
    {of_merge : ∀ {p q}, object p → object q → object (p.merge q)} {t : Schema} {rootName : String}
    (ht : t.WellFormed (.canonical object of_merge))
    (h : ∀ p ∈ t.occurrences (typeName rootName) .top, ∀ q ∈ t.occurrences (typeName rootName) .top,
      p.words = q.words → p.signature = q.signature) : ∃ s, t.named rootName = .ok s := by
  cases hnamed : t.named rootName with
  | ok s => exact ⟨s, rfl⟩
  | error c =>
      obtain ⟨p, hp, q, hq, hwords, hsig, -⟩ := Schema.collision_of_named ht hnamed
      exact absurd (h q hq p hp hwords) hsig

/-- Naming succeeds where no path is shared. -/
theorem Schema.exists_named {object : ObjectPart → Prop}
    {of_merge : ∀ {p q}, object p → object q → object (p.merge q)} {t : Schema} {rootName : String}
    (ht : t.WellFormed (.canonical object of_merge)) (hforms : t.HasDistinctForms)
    (harrays : t.SeparatesArrays (typeName rootName)) : ∃ s, t.named rootName = .ok s := by
  refine exists_named_of_words ht fun p hp q hq hwords => ?_
  cases hqa : q.inArray with
  | true => exact harrays q hq hqa p hp hwords
  | false =>
      cases hpa : p.inArray with
      | true => exact (harrays p hp hpa q hq hwords.symm).symm
      | false => rw [eq_of_words_eq ht hforms hp hq hpa hqa hwords]

/-- **No name is missing where paths are not shared.**  A run does not fail for want of a name, if the
fields of every object it merges have distinct forms, and no object in an array shares its path with
an object of another structure. -/
theorem no_collision_of_run {s : Settings} {r : RunRequest} {o : Options} {samples : List Sample}
    (hsamples : ∀ v ∈ samples, v.hasDistinctNames = true) (ho : s.optionsFor r = .ok o)
    (hforms : (o.inferMerged (r.isParallel s samples.length) samples).HasDistinctForms)
    (harrays : (o.inferMerged (r.isParallel s samples.length) samples).SeparatesArrays
      (s.rootNameFor r)) :
    ¬∃ c, s.run r samples = .error (.collision c) := by
  obtain ⟨schema, hschema⟩ :=
    Schema.exists_named (o.wellFormed_inferMerged _ hsamples) hforms harrays
  rintro ⟨c, h⟩
  rw [Settings.run_eq ho, hschema] at h
  split at h <;> cases h

/-- An array of boxes, and a crate next to it. -/
def boxSample : Sample :=
  .object [("boxes", .array [.object [("a", .int 1)]]), ("crate", .object [("b", .int 2)])]

/-- The schema of the sample of a box. -/
def boxMerged : Schema :=
  .object none 1 [⟨"boxes", .array (.object none 1 [⟨"a", .int, false, 1, 1⟩]) false, false, 1, 1⟩,
    ⟨"crate", .object none 1 [⟨"b", .int, false, 1, 1⟩], false, 1, 1⟩]

theorem inferMerged_boxSample : ({} : Options).inferMerged false [boxSample] = boxMerged := by
  cbv

theorem no_collision_of_boxSample :
    ¬∃ c, ({} : Settings).run { options := some {} } [boxSample] = .error (.collision c) := by
  refine no_collision_of_run (by decide) rfl (o := {}) ?_ ?_
  · show (({} : Options).inferMerged false [boxSample]).HasDistinctForms
    rw [inferMerged_boxSample]
    decide
  · show (({} : Options).inferMerged false [boxSample]).SeparatesArrays "Root"
    rw [inferMerged_boxSample]
    exact Schema.separatesArrays_of_nodup (by decide)

/-- Objects in arrays in arrays, each of another structure. -/
def nestedSample : Sample :=
  .object [("box", .array [.array [.array [.array [.object [("a", .int 1)]],
    .object [("b", .int 1)]], .object [("c", .int 1)]], .object [("d", .int 1)]])]

/-- The schema of the nested sample. -/
def nestedMerged : Schema :=
  .object none 1 [⟨"box", .array (.union [.array (.union [.array (.union [
    .array (.object none 1 [⟨"a", .int, false, 1, 1⟩]) false,
    .object none 1 [⟨"b", .int, false, 1, 1⟩]]) false,
    .object none 1 [⟨"c", .int, false, 1, 1⟩]]) false,
    .object none 1 [⟨"d", .int, false, 1, 1⟩]]) false, false, 1, 1⟩]

theorem inferMerged_nestedSample :
    ({} : Options).inferMerged false [nestedSample] = nestedMerged := by
  cbv

/-- Four objects share a path that has names for three of them, although every object has one field
only. -/
theorem collision_of_nestedSample :
    (({} : Options).inferMerged false [nestedSample]).HasDistinctForms ∧
      ({} : Settings).run { options := some {} } [nestedSample] =
        .error (.collision ⟨"Box", "Box"⟩) := by
  constructor
  · rw [inferMerged_nestedSample]
    decide
  · cbv

/-! ### Shared paths -/

/-- **Naming fails only where a path is shared.**  If a well-formed schema cannot be named, the walk
over its objects is stuck at one whose path an object of another structure has, met before; the
failure tells that path and the last word of it.  So naming succeeds if objects of one path are
structurally equal. -/
theorem named_unless_path_shared {t : Schema} (ht : t.WellFormed .observed) (rootName : String) :
    (∀ c, t.named rootName = .error c → ∃ before p after n,
      t.occurrences (typeName rootName) .top = before ++ p :: after ∧
        Steps before (reserved rootName t) n ∧ Stuck p n ∧
          (∃ q ∈ before, q.words = p.words ∧ q.signature ≠ p.signature) ∧
            p.words.getLast? = some c.base ∧ c.path = ".".intercalate p.words) ∧
      ((∀ p ∈ t.occurrences (typeName rootName) .top, ∀ q ∈ t.occurrences (typeName rootName) .top,
        p.words = q.words → p.signature = q.signature) → ∃ s, t.named rootName = .ok s) := by
  constructor
  · intro c hc
    obtain ⟨before, p, after, n, he, hs, hp, rfl⟩ := Schema.stuck_of_named hc
    have hmem : p ∈ t.occurrences (typeName rootName) .top :=
      he ▸ List.mem_append_right _ List.mem_cons_self
    have hlast : p.words.getLast? = some (p.words.getLast (words_ne_nil_of_stuck ht hmem hs hp)) :=
      List.getLast?_eq_some_getLast _
    refine ⟨before, p, after, n, he, hs, hp, exists_same_words_of_stuck ht he hs hp, ?_, rfl⟩
    rw [Occurrence.collision, hlast, Option.getD_some]
  · exact Schema.exists_named_of_words ht

theorem wellFormed_nestedMerged : nestedMerged.WellFormed .observed :=
  inferMerged_nestedSample ▸ Options.wellFormed_inferMerged {} false (by decide)

theorem wellFormed_boxMerged : boxMerged.WellFormed .observed :=
  inferMerged_boxSample ▸ Options.wellFormed_inferMerged {} false (by decide)

/-- Objects in arrays in arrays share a path, and the last of them has no name left; a box and a crate
have paths of their own. -/
theorem named_unless_path_shared_of_nested :
    (∃ p ∈ nestedMerged.occurrences "Root" .top, ∃ q ∈ nestedMerged.occurrences "Root" .top,
      q.words = p.words ∧ q.signature ≠ p.signature ∧ p.words.getLast? = some "Box") ∧
      ∃ s, boxMerged.named "Root" = .ok s := by
  constructor
  · have hfails : nestedMerged.named "Root" = .error ⟨"Box", "Box"⟩ := by cbv
    obtain ⟨before, p, after, n, he, -, -, ⟨q, hq, hwords, hsig⟩, hlast, -⟩ :=
      (named_unless_path_shared wellFormed_nestedMerged "Root").1 _ hfails
    have he : nestedMerged.occurrences "Root" .top = before ++ p :: after := he
    rw [he]
    exact ⟨p, List.mem_append_right _ List.mem_cons_self, q, List.mem_append_left _ hq, hwords, hsig,
      hlast⟩
  · refine (named_unless_path_shared wellFormed_boxMerged "Root").2 ?_
    have hpaths : ((boxMerged.occurrences "Root" .top).map fun p => p.words).Nodup := by decide
    intro p hp q hq hwords
    rw [List.inj_on_of_nodup_map hpaths hp hq hwords]

end SampleSchema
