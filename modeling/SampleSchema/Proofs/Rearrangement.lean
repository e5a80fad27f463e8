import SampleSchema.Proofs.FieldOrder
import SampleSchema.Proofs.SummaryMerge

/-!
# Summaries of rearranged values

`Rearranges xs ys` says that `ys` has the values of `xs` in another order, also inside arrays at any
depth.  Every way of looking at the values of a position forgets their order or keeps such a
rearrangement, so their summaries are alike (`summaryWith_alike`).
-/

namespace SampleSchema

/-! ### Lists in another order -/

/-- The number part that stands for several ones does not depend on their order. -/
theorem NumberPart.ofAll_perm {ps qs : List NumberPart} (h : ps.Perm qs) :
    ofAll ps = ofAll qs := by
  rw [ofAll, ofAll, h.all_eq]
  simp only [← List.length_eq_zero_iff, h.length_eq]

/-- The string part that stands for several ones does not depend on their order. -/
theorem StringPart.ofAll_perm {ps qs : List StringPart} (h : ps.Perm qs) :
    ofAll ps = ofAll qs := by
  rw [ofAll, ofAll, h.all_eq, h.all_eq]
  simp only [← List.length_eq_zero_iff, h.length_eq]

/-- Without repeated texts a list has each of its texts once. -/
theorem nodup_eraseDups : ∀ l : List String, l.eraseDups.Nodup
  | [] => List.nodup_nil
  | a :: l => by
      rw [List.eraseDups_cons, List.nodup_cons, List.mem_eraseDups]
      exact ⟨by simp, nodup_eraseDups _⟩
termination_by l => l.length
decreasing_by exact Nat.lt_succ_of_le (List.length_filter_le _ _)

/-- Whether lists are as long as each other and have related elements one by one. -/
inductive Pointwise {α : Type} (R : α → α → Prop) : List α → List α → Prop where
  | nil : Pointwise R [] []
  | cons {a b : α} {as bs : List α} (h : R a b) (hs : Pointwise R as bs) :
      Pointwise R (a :: as) (b :: bs)

theorem Pointwise.length_eq {α : Type} {R : α → α → Prop} : ∀ {as bs : List α},
    Pointwise R as bs → as.length = bs.length
  | _, _, .nil       => rfl
  | _, _, .cons _ hs => congrArg (· + 1) hs.length_eq

namespace Observation

/-! ### Rearranged values -/

mutual

/-- Whether two values are the same but for the order of the items of arrays. -/
inductive Alike : Observation → Observation → Prop where
  | refl (x : Observation) : Observation.Alike x x
  | array {as bs cs : List Observation} (h : AllAlike as bs) (hp : bs.Perm cs) :
      Observation.Alike (.array as) (.array cs)
  | object {fs gs : List (String × Observation)} (h : MembersAlike fs gs) :
      Observation.Alike (.object fs) (.object gs)

/-- Whether values are alike one by one. -/
inductive AllAlike : List Observation → List Observation → Prop where
  | nil : AllAlike [] []
  | cons {x y : Observation} {xs ys : List Observation} (h : Observation.Alike x y)
      (hs : AllAlike xs ys) : AllAlike (x :: xs) (y :: ys)

/-- Whether fields have the same names and alike values one by one. -/
inductive MembersAlike : List (String × Observation) → List (String × Observation) → Prop where
  | nil : MembersAlike [] []
  | cons {name : String} {x y : Observation} {fs gs : List (String × Observation)}
      (h : Observation.Alike x y) (hs : MembersAlike fs gs) :
      MembersAlike ((name, x) :: fs) ((name, y) :: gs)

end

/-- Whether some values are others in another order, also inside arrays. -/
def Rearranges (xs ys : List Observation) : Prop := ∃ zs, AllAlike xs zs ∧ zs.Perm ys

/-- Values are alike to themselves, one by one. -/
theorem AllAlike.refl : ∀ xs : List Observation, AllAlike xs xs
  | []      => .nil
  | x :: xs => .cons (.refl x) (AllAlike.refl xs)

/-- Lists that are alike one by one can be put together. -/
theorem AllAlike.append : ∀ {xs ys xs' ys' : List Observation}, AllAlike xs ys → AllAlike xs' ys' →
    AllAlike (xs ++ xs') (ys ++ ys')
  | _, _, _, _, .nil, h'       => h'
  | _, _, _, _, .cons h hs, h' => .cons h (hs.append h')

/-- A permutation of values rearranges them. -/
theorem Rearranges.of_perm {xs ys : List Observation} (h : xs.Perm ys) : Rearranges xs ys :=
  ⟨xs, .refl xs, h⟩

/-- Rearranged lists can be put together. -/
theorem Rearranges.append {xs ys xs' ys' : List Observation} (h : Rearranges xs ys)
    (h' : Rearranges xs' ys') : Rearranges (xs ++ xs') (ys ++ ys') := by
  obtain ⟨zs, ha, hp⟩ := h
  obtain ⟨zs', ha', hp'⟩ := h'
  exact ⟨zs ++ zs', ha.append ha', hp.append hp'⟩

/-- What rearranges values may be permuted once more. -/
theorem Rearranges.trans_perm {xs ys zs : List Observation} (h : Rearranges xs ys)
    (hp : ys.Perm zs) : Rearranges xs zs := by
  obtain ⟨ws, ha, hp'⟩ := h
  exact ⟨ws, ha, hp'.trans hp⟩

theorem AllAlike.length_eq : ∀ {xs ys : List Observation}, AllAlike xs ys → xs.length = ys.length
  | _, _, .nil       => rfl
  | _, _, .cons _ hs => congrArg (· + 1) hs.length_eq

/-- No values are rearranged to no values only. -/
theorem Rearranges.eq_nil_iff {xs ys : List Observation} (h : Rearranges xs ys) :
    xs = [] ↔ ys = [] := by
  obtain ⟨zs, ha, hp⟩ := h
  rw [← List.length_eq_zero_iff, ← List.length_eq_zero_iff, ha.length_eq, hp.length_eq]

/-! ### Values of one kind -/

/-- What alike values have in common is the same for lists of alike values. -/
theorem AllAlike.filterMap_eq {β : Type} {f : Observation → Option β}
    (hf : ∀ {x y}, Observation.Alike x y → f x = f y) : ∀ {xs ys : List Observation},
      AllAlike xs ys → xs.filterMap f = ys.filterMap f
  | _, _, .nil       => rfl
  | _, _, .cons h hs => by rw [List.filterMap_cons, List.filterMap_cons, hf h, hs.filterMap_eq hf]

theorem AllAlike.any_eq {f : Observation → Bool}
    (hf : ∀ {x y}, Observation.Alike x y → f x = f y) : ∀ {xs ys : List Observation},
      AllAlike xs ys → xs.any f = ys.any f
  | _, _, .nil       => rfl
  | _, _, .cons h hs => by rw [List.any_cons, List.any_cons, hf h, hs.any_eq hf]

section
variable {xs ys : List Observation} (h : Rearranges xs ys)
include h

/-- Whether there is a null among values does not depend on their arrangement. -/
theorem Rearranges.any_isNull : xs.any isNull = ys.any isNull := by
  obtain ⟨zs, ha, hp⟩ := h
  rw [ha.any_eq fun h => by cases h <;> rfl, hp.any_eq]

/-- Whether there is a truth value among values does not depend on their arrangement. -/
theorem Rearranges.any_isBool : xs.any isBool = ys.any isBool := by
  obtain ⟨zs, ha, hp⟩ := h
  rw [ha.any_eq fun h => by cases h <;> rfl, hp.any_eq]

/-- Rearranged values have the same numbers in some order. -/
theorem Rearranges.numbers_perm : (numbers xs).Perm (numbers ys) := by
  obtain ⟨zs, ha, hp⟩ := h
  rw [numbers, ha.filterMap_eq fun h => by cases h <;> rfl]
  exact hp.filterMap _

/-- Rearranged values have the same texts in some order. -/
theorem Rearranges.texts_perm : (texts xs).Perm (texts ys) := by
  obtain ⟨zs, ha, hp⟩ := h
  rw [texts, ha.filterMap_eq fun h => by cases h <;> rfl]
  exact hp.filterMap _

end

/-! ### Arrays and objects -/

theorem AllAlike.filterMap {β : Type} {R : β → β → Prop} {f : Observation → Option β}
    (hf : ∀ {x y}, Observation.Alike x y → Option.Rel R (f x) (f y)) :
    ∀ {xs ys : List Observation}, AllAlike xs ys → Pointwise R (xs.filterMap f) (ys.filterMap f)
  | _, _, .nil => .nil
  | _, _, @AllAlike.cons x y xs ys h hs => by
      have ih := hs.filterMap hf
      have hxy := hf h
      rw [List.filterMap_cons, List.filterMap_cons]
      cases hx : f x <;> cases hy : f y <;> rw [hx, hy] at hxy
      · exact ih
      · cases hxy
      · cases hxy
      · cases hxy with
        | some hxy => exact .cons hxy ih

theorem MembersAlike.refl : ∀ fs : List (String × Observation), MembersAlike fs fs
  | []           => .nil
  | (_, x) :: fs => .cons (.refl x) (MembersAlike.refl fs)

/-- Alike values are arrays both or neither, and the items of the one rearrange the other's. -/
theorem Alike.items? {x y : Observation} (h : Observation.Alike x y) :
    Option.Rel Rearranges x.items? y.items? := by
  cases h with
  | refl =>
      cases x with
      | array as => exact .some (.of_perm (.refl as))
      | _ => exact .none
  | array h hp => exact .some ⟨_, h, hp⟩
  | object _ => exact .none

/-- Alike values are objects both or neither, and their members are alike in their order. -/
theorem Alike.fields? {x y : Observation} (h : Observation.Alike x y) :
    Option.Rel MembersAlike x.fields? y.fields? := by
  cases h with
  | refl =>
      cases x with
      | object fs => exact .some (.refl fs)
      | _ => exact .none
  | array _ _ => exact .none
  | object h => exact .some h

/-- Rearranged items of several arrays are rearranged when they are put together. -/
theorem rearranges_flatten : ∀ {xss yss : List (List Observation)}, Pointwise Rearranges xss yss →
    Rearranges xss.flatten yss.flatten
  | _, _, .nil       => .of_perm (.refl [])
  | _, _, .cons h hs => by
      rw [List.flatten_cons, List.flatten_cons]
      exact h.append (rearranges_flatten hs)

section
variable {xs ys : List Observation} (h : Rearranges xs ys)
include h

theorem Rearranges.arrays_eq_nil_iff : arrays xs = [] ↔ arrays ys = [] := by
  obtain ⟨zs, ha, hp⟩ := h
  have hpoint : Pointwise Rearranges (arrays xs) (arrays zs) := ha.filterMap Alike.items?
  have hperm : (arrays zs).Perm (arrays ys) := hp.filterMap _
  rw [← List.length_eq_zero_iff, ← List.length_eq_zero_iff, hpoint.length_eq, hperm.length_eq]

/-- The items of all arrays among rearranged values rearrange each other. -/
theorem Rearranges.items : Rearranges (items xs) (items ys) := by
  obtain ⟨zs, ha, hp⟩ := h
  have hpoint : Pointwise Rearranges (arrays xs) (arrays zs) := ha.filterMap Alike.items?
  have hperm : (arrays zs).Perm (arrays ys) := hp.filterMap _
  exact (rearranges_flatten hpoint).trans_perm hperm.flatten

/-- The objects among rearranged values are alike one by one, and then put into another order. -/
theorem Rearranges.objects :
    ∃ os, Pointwise MembersAlike (objects xs) os ∧ os.Perm (objects ys) := by
  obtain ⟨zs, ha, hp⟩ := h
  exact ⟨Observation.objects zs, ha.filterMap Alike.fields?, hp.filterMap _⟩

theorem Rearranges.length_objects : (Observation.objects xs).length =
    (Observation.objects ys).length := by
  obtain ⟨os, hpoint, hperm⟩ := h.objects
  rw [hpoint.length_eq, hperm.length_eq]

end

/-! ### Fields -/

theorem MembersAlike.names_eq : ∀ {fs gs : List (String × Observation)}, MembersAlike fs gs →
    fs.map Prod.fst = gs.map Prod.fst
  | _, _, .nil       => rfl
  | _, _, .cons _ hs => by rw [List.map_cons, List.map_cons, hs.names_eq]

theorem MembersAlike.lookup (name : String) : ∀ {fs gs : List (String × Observation)},
    MembersAlike fs gs → Option.Rel Observation.Alike (fs.lookup name) (gs.lookup name)
  | _, _, .nil => .none
  | _, _, @MembersAlike.cons n _ _ _ _ h hs => by
      rw [List.lookup_cons, List.lookup_cons]
      cases name == n
      · exact hs.lookup name
      · exact .some h

theorem flatMap_names_eq : ∀ {os ps : List (List (String × Observation))},
    Pointwise MembersAlike os ps →
      (os.flatMap fun fs => fs.map Prod.fst) = ps.flatMap fun fs => fs.map Prod.fst
  | _, _, .nil       => rfl
  | _, _, .cons h hs => by rw [List.flatMap_cons, List.flatMap_cons, h.names_eq,
      flatMap_names_eq hs]

/-- The values under a name are alike in objects with alike members. -/
theorem valuesUnder_alike (name : String) {os ps : List (List (String × Observation))}
    (h : Pointwise MembersAlike os ps) :
    AllAlike (valuesUnder name os) (valuesUnder name ps) := by
  induction h with
  | nil => exact .nil
  | @cons fs gs os ps h _ ih =>
    have hfg := h.lookup name
    rw [Observation.valuesUnder, Observation.valuesUnder, List.filterMap_cons,
      List.filterMap_cons]
    cases hf : fs.lookup name <;> cases hg : gs.lookup name <;> rw [hf, hg] at hfg
    · exact ih
    · cases hfg
    · cases hfg
    · cases hfg with
      | some hfg => exact .cons hfg ih

section
variable {xs ys : List Observation} (h : Rearranges xs ys)
include h

/-- The names of all members among rearranged values are the same in some order. -/
theorem Rearranges.names_perm : (names (Observation.objects xs)).Perm
    (names (Observation.objects ys)) := by
  obtain ⟨os, hpoint, hperm⟩ := h.objects
  refine (List.perm_ext_iff_of_nodup (nodup_eraseDups _) (nodup_eraseDups _)).mpr fun name => ?_
  rw [List.mem_eraseDups, List.mem_eraseDups, flatMap_names_eq hpoint]
  exact (hperm.flatMap_right _).mem_iff

/-- The values under a name in all objects among rearranged values rearrange each other. -/
theorem Rearranges.valuesUnder (name : String) :
    Rearranges (valuesUnder name (Observation.objects xs))
      (valuesUnder name (Observation.objects ys)) := by
  obtain ⟨os, hpoint, hperm⟩ := h.objects
  exact ⟨_, valuesUnder_alike name hpoint, hperm.filterMap _⟩

theorem Rearranges.length_valuesUnder (name : String) :
    (Observation.valuesUnder name (Observation.objects xs)).length =
      (Observation.valuesUnder name (Observation.objects ys)).length := by
  obtain ⟨zs, ha, hp⟩ := h.valuesUnder name
  rw [ha.length_eq, hp.length_eq]

end

/-! ### Summaries -/

/-- Fields of the same names with alike types and the same counts. -/
theorem fieldsAlike_map {os ps : List (List (String × Observation))}
    (hlen : os.length = ps.length)
    (hcount : ∀ name, (valuesUnder name os).length = (valuesUnder name ps).length)
    (htype : ∀ name absent,
      (summaryWith absent (valuesUnder name os)).Alike (summaryWith absent (valuesUnder name ps))) :
    ∀ names : List String, FieldsAlike (names.map (fieldOf os)) (names.map (fieldOf ps))
  | [] => .nil
  | name :: names => by
      rw [List.map_cons, List.map_cons, fieldOf, fieldOf, hlen, hcount]
      exact .cons (htype name _) (fieldsAlike_map hlen hcount htype names)

/-- **Rearranged values have alike summaries.** -/
theorem summaryWith_alike {xs ys : List Observation} (h : Rearranges xs ys) (absent : Bool) :
    (summaryWith absent xs).Alike (summaryWith absent ys) := by
  rw [summaryWith_eq_assemble, summaryWith_eq_assemble, h.any_isNull]
  refine Parts.assemble_alike _ h.any_isBool (NumberPart.ofAll_perm h.numbers_perm)
    (StringPart.ofAll_perm h.texts_perm) ?_ ?_
  · show Option.Rel _ (arrayPart xs) (arrayPart ys)
    rw [arrayPart, arrayPart]
    simp only [← h.arrays_eq_nil_iff, ← h.items.eq_nil_iff]
    by_cases ha : arrays xs = []
    · rw [if_pos ha, if_pos ha]
      exact .none
    · rw [if_neg ha, if_neg ha]
      split
      · exact .some (.refl _)
      · exact .some (.array (summaryWith_alike h.items false))
  · show Option.Rel _ (objectPart xs) (objectPart ys)
    rw [objectPart, objectPart]
    have hnil : Observation.objects xs = [] ↔ Observation.objects ys = [] := by
      rw [← List.length_eq_zero_iff, ← List.length_eq_zero_iff, h.length_objects]
    simp only [← hnil]
    by_cases ho : Observation.objects xs = []
    · rw [if_pos ho, if_pos ho]
      exact .none
    · rw [if_neg ho, if_neg ho, h.length_objects]
      refine .some (.object (fieldsAlike_map h.length_objects h.length_valuesUnder
        (fun name absent => summaryWith_alike (h.valuesUnder name) absent) _) ?_)
      exact h.names_perm.map _
termination_by sizeOf xs
decreasing_by
  · exact sizeOf_items_lt ha
  · exact sizeOf_valuesUnder_lt name ho

end Observation

end SampleSchema
