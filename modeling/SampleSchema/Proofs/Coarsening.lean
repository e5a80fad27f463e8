import SampleSchema.Proofs.SummaryMerge
import SampleSchema.Proofs.Unions

/-!
# Schemas with coarser leaves

A schema coarsens to another when that comes from it by turning some integers into floats and some
timestamps into plain texts (`Schema.CoarsensTo`).  Nothing else changes: neither objects and the
order of their fields nor counters, optionals, placeholders of empty arrays, or the buckets of
unions, so both schemas have unions at the same paths (`Schema.CoarsensTo.paths_unions`).

Numbers and texts at one position coarsen one by one, and then so does the class that they have
together (`NumberPart.ofAll_coarsens`, `StringPart.ofAll_coarsens`).  For texts this needs that a
timestamp becomes a plain text and not a numeric one.
-/

namespace SampleSchema

mutual

/-- Whether a schema becomes another when some integers are turned into floats and some timestamps
into plain texts. -/
inductive Schema.CoarsensTo : Schema → Schema → Prop where
  | refl (t : Schema) : Schema.CoarsensTo t t
  | float : Schema.CoarsensTo .int .float
  | plain : Schema.CoarsensTo .timestamp (.string false)
  | array {e f : Schema} {empty : Bool} (h : e.CoarsensTo f) :
      Schema.CoarsensTo (.array e empty) (.array f empty)
  | object {name : Option String} {samples : Int} {fs gs : List (Field Schema)}
      (h : FieldsCoarsenTo fs gs) :
      Schema.CoarsensTo (.object name samples fs) (.object name samples gs)
  | optional {t u : Schema} (h : t.CoarsensTo u) : Schema.CoarsensTo (.optional t) (.optional u)
  | union {ts us : List Schema} (h : AllCoarsenTo ts us) :
      Schema.CoarsensTo (.union ts) (.union us)

/-- Whether the types of fields coarsen one by one, and the fields are the same otherwise. -/
inductive FieldsCoarsenTo : List (Field Schema) → List (Field Schema) → Prop where
  | nil : FieldsCoarsenTo [] []
  | cons {name : String} {t u : Schema} {optional : Bool} {observed total : Int}
      {fs gs : List (Field Schema)} (h : t.CoarsensTo u) (hs : FieldsCoarsenTo fs gs) :
      FieldsCoarsenTo (⟨name, t, optional, observed, total⟩ :: fs)
        (⟨name, u, optional, observed, total⟩ :: gs)

/-- Whether schemas coarsen one by one. -/
inductive AllCoarsenTo : List Schema → List Schema → Prop where
  | nil : AllCoarsenTo [] []
  | cons {t u : Schema} {ts us : List Schema} (h : t.CoarsensTo u) (hs : AllCoarsenTo ts us) :
      AllCoarsenTo (t :: ts) (u :: us)

end

theorem AllCoarsenTo.of_forall₂ : ∀ {ts us : List Schema},
    List.Forall₂ Schema.CoarsensTo ts us → AllCoarsenTo ts us
  | _, _, .nil       => .nil
  | _, _, .cons h hs => .cons h (AllCoarsenTo.of_forall₂ hs)

theorem Schema.CoarsensTo.isCongruence : IsCongruence Schema.CoarsensTo :=
  ⟨.refl, .optional, fun h => .union (.of_forall₂ h)⟩

mutual

/-- Coarser leaves leave the unions where they are. -/
theorem Schema.CoarsensTo.paths_unions : ∀ {t u : Schema}, t.CoarsensTo u → ∀ path,
    (t.unions path).map Prod.fst = (u.unions path).map Prod.fst
  | _, _, .refl _, _ | _, _, .float, _ | _, _, .plain, _ => rfl
  | _, _, .array h, path => h.paths_unions (elementPath path)
  | _, _, .object h, path => h.paths_fieldUnions path
  | _, _, .optional h, path => h.paths_unions path
  | _, _, .union h, path => by
      rw [Schema.unions, Schema.unions, List.map_cons, List.map_cons, h.paths_unionsOfAll path]

theorem FieldsCoarsenTo.paths_fieldUnions : ∀ {fs gs : List (Field Schema)},
    FieldsCoarsenTo fs gs → ∀ path,
      (fieldUnions path fs).map Prod.fst = (fieldUnions path gs).map Prod.fst
  | _, _, .nil, _ => rfl
  | _, _, @FieldsCoarsenTo.cons name _ _ _ _ _ _ _ h hs, path => by
      rw [fieldUnions, fieldUnions, List.map_append, List.map_append,
        h.paths_unions (fieldPath path name), hs.paths_fieldUnions path]

theorem AllCoarsenTo.paths_unionsOfAll : ∀ {ts us : List Schema}, AllCoarsenTo ts us → ∀ path,
    (unionsOfAll path ts).map Prod.fst = (unionsOfAll path us).map Prod.fst
  | _, _, .nil, _ => rfl
  | _, _, .cons h hs, path => by
      rw [unionsOfAll, unionsOfAll, List.map_append, List.map_append, h.paths_unions path,
        hs.paths_unionsOfAll path]

end

/-! ### Classes of numbers and texts -/

/-- Whether a class of numbers is another one or coarsens to it. -/
def NumberPart.CoarsensTo (p q : NumberPart) : Prop := p = q ∨ p = .int ∧ q = .float

/-- Whether a class of texts is another one or coarsens to it. -/
def StringPart.CoarsensTo (p q : StringPart) : Prop := p = q ∨ p = .timestamp ∧ q = .plain

/-- What holds of all on the right holds of all on the left, if it does one by one. -/
theorem all_of_forall₂ {α : Type} {R : α → α → Prop} {f : α → Bool}
    (hf : ∀ a b, R a b → f b = true → f a = true) {as bs : List α} (h : List.Forall₂ R as bs)
    (hall : bs.all f = true) : as.all f = true := by
  induction h with
  | nil => rfl
  | cons hab _ ih =>
      rw [List.all_cons, Bool.and_eq_true] at hall ⊢
      exact ⟨hf _ _ hab hall.1, ih hall.2⟩

/-- Classes of numbers that coarsen one by one. -/
theorem NumberPart.ofAll_coarsens {ps qs : List NumberPart}
    (h : List.Forall₂ NumberPart.CoarsensTo ps qs) :
    Option.Rel (fun m n => m.toSchema.CoarsensTo n.toSchema) (ofAll ps) (ofAll qs) := by
  have hint : qs.all (· = .int) = true → ps.all (· = .int) = true := by
    refine all_of_forall₂ (fun p q hpq hq => ?_) h
    rcases hpq with rfl | ⟨rfl, rfl⟩
    · exact hq
    · rfl
  have hnil : ps = [] ↔ qs = [] := by
    rw [← List.length_eq_zero_iff, ← List.length_eq_zero_iff, h.length_eq]
  rw [ofAll, ofAll]
  simp only [hnil]
  split
  · exact .none
  refine .some ?_
  by_cases hqs : qs.all (· = .int) = true
  · rw [if_pos hqs, if_pos (hint hqs)]
    exact .refl _
  · rw [if_neg hqs]
    split
    · exact .float
    · exact .refl _

/-- Classes of texts that coarsen one by one. -/
theorem StringPart.ofAll_coarsens {ps qs : List StringPart}
    (h : List.Forall₂ StringPart.CoarsensTo ps qs) :
    Option.Rel (fun s t => s.toSchema.CoarsensTo t.toSchema) (ofAll ps) (ofAll qs) := by
  have htime : qs.all (· = .timestamp) = true → ps.all (· = .timestamp) = true := by
    refine all_of_forall₂ (fun p q hpq hq => ?_) h
    rcases hpq with rfl | ⟨rfl, rfl⟩
    · exact hq
    · rfl
  -- the numeric texts are the same on both sides
  have hnumeric : qs.all (· = .numeric) = ps.all (· = .numeric) := by
    refine Bool.eq_iff_iff.mpr ⟨all_of_forall₂ (fun p q hpq hq => ?_) h,
      all_of_forall₂ (fun q p hpq hp => ?_) h.flip⟩
    · rcases hpq with rfl | ⟨rfl, rfl⟩
      · exact hq
      · cases hq
    · rcases hpq with rfl | ⟨rfl, rfl⟩
      · exact hp
      · cases hp
  have hnil : ps = [] ↔ qs = [] := by
    rw [← List.length_eq_zero_iff, ← List.length_eq_zero_iff, h.length_eq]
  rw [ofAll, ofAll]
  simp only [hnil, hnumeric]
  split
  · exact .none
  rename_i hne
  refine .some ?_
  by_cases hqs : qs.all (· = .timestamp) = true
  · rw [if_pos hqs, if_pos (htime hqs)]
    exact .refl _
  rw [if_neg hqs]
  by_cases hps : ps.all (· = .timestamp) = true
  · rw [if_pos hps, all_numeric_eq_false (hne ∘ hnil.mp) hps]
    exact .plain
  · rw [if_neg hps]
    exact .refl _

end SampleSchema
