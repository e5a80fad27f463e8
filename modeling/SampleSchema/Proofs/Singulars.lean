import SampleSchema.Proofs.Identifiers

/-!
# Singular names

`singular` changes the last word of a text at most: the small letters at its end with the capital before
them, or with no letter before them (`IsLastWord`).  The word keeps its first letter, and what comes of
it is not longer and is a word again (`IsSingularOf.exists_cons`), so that the name of a type stays one
(`IsTypeName.singular`).

What comes of a word is its own singular: it does not end in an s any more, or it ends as words do that
look like plurals and are none.  So `singular` does nothing a second time, to any text
(`singular_singular`).
-/

namespace SampleSchema

/-! ### The last word of a text -/

/-- Whether a text is taken apart before its last word. -/
inductive IsLastWord : List Char → List Char → Prop where
  | capital {head small : List Char} {c : Char} (hc : c.isUpper = true) (hne : small ≠ [])
      (hs : ∀ d ∈ small, d.isLower = true) : IsLastWord head (c :: small)
  | small {head small : List Char} (hhead : ∀ c, head.getLast? = some c → c.isAlpha = false)
      (hne : small ≠ []) (hs : ∀ d ∈ small, d.isLower = true) : IsLastWord head small

theorem isUpper_eq_of_not_isLower {c : Char} (h : c.isLower = false) : c.isUpper = c.isAlpha := by
  rw [Char.isAlpha, h, Bool.or_false]

/-- How a text is taken apart that ends in small letters. -/
theorem splitLastWord_of_small {before small : List Char} (hne : small ≠ [])
    (hs : ∀ c ∈ small, c.isLower = true)
    (hbefore : ∀ c, before.getLast? = some c → c.isLower = false) :
    splitLastWord (before ++ small) = match before.getLast? with
      | some c => if c.isUpper then (before.dropLast, c :: small) else (before, small)
      | none   => (before, small) := by
  have hsmall : ∀ c ∈ small.reverse, c.isLower = true := fun c hc => hs c (List.mem_reverse.mp hc)
  have htake : before.reverse.takeWhile Char.isLower = [] ∧
      before.reverse.dropWhile Char.isLower = before.reverse := by
    cases hlast : before.reverse with
    | nil => exact ⟨rfl, rfl⟩
    | cons c cs =>
        have hc : c.isLower = false := hbefore c (by rw [← List.head?_reverse, hlast]; rfl)
        simp [hc]
  obtain ⟨x, xs, rfl⟩ := List.exists_cons_of_ne_nil hne
  rw [splitLastWord, List.reverse_append, List.takeWhile_append_of_pos hsmall,
    List.dropWhile_append_of_pos hsmall, htake.1, htake.2, List.append_nil, List.reverse_reverse,
    List.reverse_reverse]
  cases before.getLast? <;> rfl

/-- A text is taken apart before its last word. -/
theorem IsLastWord.splitLastWord_eq {head word : List Char} (h : IsLastWord head word) :
    splitLastWord (head ++ word) = (head, word) := by
  cases h with
  | @capital small c hc hne hs =>
      have hlast : ∀ d, (head ++ [c]).getLast? = some d → d.isLower = false := fun d hd => by
        rw [List.getLast?_concat] at hd
        obtain rfl := Option.some.inj hd
        exact Bool.eq_false_iff.mpr (Char.not_isLower_of_isUpper hc)
      have hsplit := splitLastWord_of_small hne hs hlast
      rw [List.getLast?_concat, List.append_assoc, List.dropLast_concat] at hsplit
      exact hsplit.trans (if_pos hc)
  | small hhead hne hs =>
      have hlower : ∀ c, head.getLast? = some c → c.isUpper = false ∧ c.isLower = false :=
        fun c hc => Bool.or_eq_false_iff.mp (hhead c hc)
      rw [splitLastWord_of_small hne hs fun c hc => (hlower c hc).2]
      cases hlast : head.getLast? with
      | none => rfl
      | some c => simp [(hlower c hlast).1]

/-- What a text is taken apart into, if it has a last word. -/
theorem isLastWord_of_splitLastWord {cs head word : List Char} (h : splitLastWord cs = (head, word))
    (hne : word ≠ []) : head ++ word = cs ∧ IsLastWord head word := by
  have hcs : cs.rdropWhile Char.isLower ++ cs.rtakeWhile Char.isLower = cs :=
    List.rdropWhile_append_rtakeWhile
  have hs : ∀ c ∈ cs.rtakeWhile Char.isLower, c.isLower = true := fun _ => List.mem_rtakeWhile_imp
  have hbefore : ∀ c, (cs.rdropWhile Char.isLower).getLast? = some c → c.isLower = false := by
    intro c hc
    have hnot := List.head?_dropWhile_not Char.isLower cs.reverse
    rw [List.rdropWhile, List.getLast?_reverse] at hc
    rwa [hc] at hnot
  by_cases hnil : cs.rtakeWhile Char.isLower = []
  · have hnil : (cs.reverse.takeWhile Char.isLower).reverse = [] := hnil
    have hsplit : splitLastWord cs = (cs, []) := by simp only [splitLastWord, hnil]
    rw [hsplit] at h
    cases h
    exact absurd rfl hne
  · generalize cs.rdropWhile Char.isLower = before at *
    generalize cs.rtakeWhile Char.isLower = small at *
    subst hcs
    rw [splitLastWord_of_small hnil hs hbefore] at h
    split at h
    · rename_i c hlast
      split at h
      · rename_i hc
        cases h
        obtain ⟨ds, rfl⟩ := List.getLast?_eq_some_iff.mp hlast
        exact ⟨by simp, .capital hc hnil hs⟩
      · rename_i hc
        cases h
        refine ⟨rfl, .small (fun d hd => ?_) hnil hs⟩
        obtain rfl := Option.some.inj (hlast.symm.trans hd)
        rw [← isUpper_eq_of_not_isLower (hbefore _ hlast)]
        exact Bool.eq_false_iff.mpr hc
    · rename_i hlast
      cases h
      exact ⟨rfl, .small (fun d hd => by rw [hlast] at hd; cases hd) hnil hs⟩

theorem IsLastWord.ne_nil {head word : List Char} (h : IsLastWord head word) : word ≠ [] := by
  cases h with
  | capital _ _ _ => exact List.cons_ne_nil _ _
  | small _ hne _ => exact hne

/-- A text with a last word ends in a small letter. -/
theorem IsLastWord.isLower_of_getLast? {head word : List Char} (h : IsLastWord head word) {c : Char}
    (hc : (head ++ word).getLast? = some c) : c.isLower = true := by
  cases h with
  | capital _ hne hs =>
      rw [List.append_cons, List.getLast?_append_of_ne_nil _ hne] at hc
      exact hs c (List.mem_of_getLast? hc)
  | small _ hne hs =>
      rw [List.getLast?_append_of_ne_nil _ hne] at hc
      exact hs c (List.mem_of_getLast? hc)

/-- A text with a last word has no line feed at the end. -/
theorem IsLastWord.withoutFinalNewline_eq {head word : List Char} (h : IsLastWord head word) :
    withoutFinalNewline (head ++ word) = head ++ word := by
  rw [withoutFinalNewline, if_neg]
  intro hc
  cases h.isLower_of_getLast? hc

/-! ### The singular of a word -/

/-- What becomes of a word in the singular. -/
inductive IsSingularOf (word : List Char) : List Char → Prop where
  | same : IsSingularOf word word
  | ies (hlen : 3 < word.length) : IsSingularOf word (word.dropLast.dropLast.dropLast ++ ['y'])
  | es (hlen : 3 < word.length)
      (h : endsInAny word ["sses", "shes", "ches", "uses", "xes", "zes"] = true) :
      IsSingularOf word word.dropLast.dropLast
  | s (hlen : 3 < word.length) (hkept : endsInAny word ["ss", "us", "is"] = false)
      (h : endsInAny word ["s"] = true) : IsSingularOf word word.dropLast

theorem isSingularOf_singularWord (word : List Char) : IsSingularOf word (singularWord word) := by
  rw [singularWord]
  by_cases hlen : word.length ≤ 3
  · rw [if_pos hlen]
    exact .same
  have hlen' : 3 < word.length := Nat.lt_of_not_le hlen
  rw [if_neg hlen]
  cases hies : endsInAny word ["ies"] with
  | true => exact .ies hlen'
  | false =>
  cases hes : endsInAny word ["sses", "shes", "ches", "uses", "xes", "zes"] with
  | true => exact .es hlen' hes
  | false =>
  cases hkept : endsInAny word ["ss", "us", "is"] with
  | true => exact .same
  | false =>
  cases hs : endsInAny word ["s"] with
  | true => exact .s hlen' hkept hs
  | false => exact .same

/-- How the letters after the first one of a word change in the singular. -/
structure ShortensTo (cs ds : List Char) : Prop where
  length_le : ds.length ≤ cs.length
  mem       : ∀ d ∈ ds, d ∈ cs ∨ d = 'y'

/-- A word keeps its first letter, and the letters after it get fewer or end in y, but some stay. -/
theorem IsSingularOf.exists_cons {c : Char} {cs word : List Char} (h : IsSingularOf (c :: cs) word) :
    ∃ ds, word = c :: ds ∧ ShortensTo cs ds ∧ (cs ≠ [] → ds ≠ []) := by
  have drop : ∀ {es : List Char}, 0 < es.length → (c :: es).dropLast = c :: es.dropLast :=
    fun hes => List.dropLast_cons_of_ne_nil (List.ne_nil_of_length_pos hes)
  have subset : ∀ es : List Char, es.dropLast ⊆ es := List.dropLast_subset
  cases h with
  | same => exact ⟨cs, rfl, ⟨Nat.le_refl _, fun _ => .inl⟩, id⟩
  | ies hlen =>
      rw [List.length_cons] at hlen
      refine ⟨cs.dropLast.dropLast.dropLast ++ ['y'], ?_, ⟨?_, ?_⟩, fun _ => List.concat_ne_nil _ _⟩
      · rw [drop (by omega), drop (by rw [List.length_dropLast]; omega),
          drop (by rw [List.length_dropLast, List.length_dropLast]; omega), List.cons_append]
      · simp only [List.length_append, List.length_dropLast, List.length_singleton]
        omega
      · intro d hd
        rcases List.mem_append.mp hd with hd | hd
        · exact .inl (subset _ (subset _ (subset _ hd)))
        · exact .inr (List.mem_singleton.mp hd)
  | es hlen _ =>
      rw [List.length_cons] at hlen
      have hdropped : cs.dropLast.dropLast.length = cs.length - 2 := by
        rw [List.length_dropLast, List.length_dropLast]
        omega
      refine ⟨cs.dropLast.dropLast, ?_, ⟨by omega, fun d hd => .inl (subset _ (subset _ hd))⟩,
        fun _ => List.ne_nil_of_length_pos (by omega)⟩
      rw [drop (by omega), drop (by rw [List.length_dropLast]; omega)]
  | s hlen _ _ =>
      rw [List.length_cons] at hlen
      have hdropped : cs.dropLast.length = cs.length - 1 := List.length_dropLast
      exact ⟨cs.dropLast, drop (by omega), ⟨by omega, fun d hd => .inl (subset _ hd)⟩,
        fun _ => List.ne_nil_of_length_pos (by omega)⟩

/-- What becomes of the last word is the last word. -/
theorem IsLastWord.singular {head word word' : List Char} (h : IsLastWord head word)
    (hw : IsSingularOf word word') : IsLastWord head word' := by
  have hlower : ∀ {cs ds : List Char}, ShortensTo cs ds → (∀ d ∈ cs, d.isLower = true) →
      ∀ d ∈ ds, d.isLower = true := fun hds hcs d hd => by
    rcases hds.mem d hd with hd | rfl
    · exact hcs d hd
    · rfl
  cases h with
  | capital hc hne hs =>
      obtain ⟨ds, rfl, hds, hds_ne⟩ := hw.exists_cons
      exact .capital hc (hds_ne hne) (hlower hds hs)
  | small hhead hne hs =>
      obtain ⟨c, cs, rfl⟩ := List.exists_cons_of_ne_nil hne
      obtain ⟨ds, rfl, hds, -⟩ := hw.exists_cons
      obtain ⟨hc, hcs⟩ := List.forall_mem_cons.mp hs
      exact .small hhead (List.cons_ne_nil _ _) (List.forall_mem_cons.mpr ⟨hc, hlower hds hcs⟩)

/-! ### The singular of a singular word -/

section
variable {word : List Char}

theorem endsInAny_iff {endings : List String} : endsInAny word endings = true ↔
    ∃ e ∈ endings, e.toList <:+ word.map Char.toLower := by
  simp [endsInAny]

/-- A word does not end in two ways of which neither is the end of the other. -/
theorem endsInAny_eq_false {e : List Char} {endings : List String}
    (h : e <:+ word.map Char.toLower)
    (hclash : ∀ f ∈ endings, ¬e <:+ f.toList ∧ ¬f.toList <:+ e) :
    endsInAny word endings = false := by
  refine Bool.eq_false_iff.mpr fun hf => ?_
  obtain ⟨f, hf, hfw⟩ := endsInAny_iff.mp hf
  obtain ⟨hef, hfe⟩ := hclash f hf
  exact (List.suffix_or_suffix_of_suffix h hfw).elim hef hfe

/-- A word that does not end in an s does not end in anything that does. -/
theorem endsInAny_eq_false_of_s {endings : List String} (h : endsInAny word ["s"] = false)
    (hs : ∀ e ∈ endings, "s".toList <:+ e.toList) : endsInAny word endings = false := by
  refine Bool.eq_false_iff.mpr fun he => ?_
  obtain ⟨e, he, hew⟩ := endsInAny_iff.mp he
  rw [endsInAny_iff.mpr ⟨"s", List.mem_singleton_self _, (hs e he).trans hew⟩] at h
  cases h

/-- A word that does not end in an s is its own singular. -/
theorem singularWord_eq_of_not_s (h : endsInAny word ["s"] = false) : singularWord word = word := by
  rw [singularWord, endsInAny_eq_false_of_s h (by decide), endsInAny_eq_false_of_s h (by decide),
    endsInAny_eq_false_of_s h (by decide), h]
  simp

/-- A word that ends as some do that are no plurals is its own singular. -/
theorem singularWord_eq_of_kept (h : endsInAny word ["ss", "us", "is"] = true) :
    singularWord word = word := by
  have hies : ∀ e ∈ ["ss", "us", "is"], ∀ f ∈ ["ies"],
      ¬e.toList <:+ f.toList ∧ ¬f.toList <:+ e.toList := by decide
  have hes : ∀ e ∈ ["ss", "us", "is"], ∀ f ∈ ["sses", "shes", "ches", "uses", "xes", "zes"],
      ¬e.toList <:+ f.toList ∧ ¬f.toList <:+ e.toList := by decide
  obtain ⟨e, he, hew⟩ := endsInAny_iff.mp h
  rw [singularWord, endsInAny_eq_false hew (hies e he), endsInAny_eq_false hew (hes e he), h]
  simp

theorem suffix_dropLast {e l : List Char} (h : e <:+ l) (hne : e ≠ []) :
    e.dropLast <:+ l.dropLast := by
  obtain ⟨t, rfl⟩ := h
  exact ⟨t, (List.dropLast_append_of_ne_nil hne).symm⟩

/-- What is left of a plural in -es is no plural. -/
theorem singularWord_eq_of_es
    (h : endsInAny word ["sses", "shes", "ches", "uses", "xes", "zes"] = true) :
    singularWord word.dropLast.dropLast = word.dropLast.dropLast := by
  have hends : ∀ e ∈ ["sses", "shes", "ches", "uses", "xes", "zes"],
      e.toList ≠ [] ∧ e.toList.dropLast ≠ [] ∧
        ((∃ k ∈ ["ss", "us", "is"], k.toList <:+ e.toList.dropLast.dropLast) ∨
          ∀ f ∈ ["s"], ¬e.toList.dropLast.dropLast <:+ f.toList ∧
            ¬f.toList <:+ e.toList.dropLast.dropLast) := by decide
  obtain ⟨e, he, hew⟩ := endsInAny_iff.mp h
  obtain ⟨hne, hne', hcases⟩ := hends e he
  have hsuffix : e.toList.dropLast.dropLast <:+ word.dropLast.dropLast.map Char.toLower := by
    rw [List.map_dropLast, List.map_dropLast]
    exact suffix_dropLast (suffix_dropLast hew hne) hne'
  rcases hcases with ⟨k, hk, hke⟩ | hclash
  · exact singularWord_eq_of_kept (endsInAny_iff.mpr ⟨k, hk, hke.trans hsuffix⟩)
  · exact singularWord_eq_of_not_s (endsInAny_eq_false hsuffix hclash)

/-- What is left of a plural in -s is no plural, where the word does not end in a double s. -/
theorem singularWord_eq_of_s (hkept : endsInAny word ["ss", "us", "is"] = false)
    (h : endsInAny word ["s"] = true) : singularWord word.dropLast = word.dropLast := by
  obtain ⟨e, he, t, ht⟩ := endsInAny_iff.mp h
  obtain rfl := List.mem_singleton.mp he
  have hdrop : word.dropLast.map Char.toLower = t := by
    rw [List.map_dropLast, ← ht]
    exact List.dropLast_concat
  refine singularWord_eq_of_not_s (Bool.eq_false_iff.mpr fun hs => ?_)
  obtain ⟨e, he, u, hu⟩ := endsInAny_iff.mp hs
  obtain rfl := List.mem_singleton.mp he
  rw [hdrop] at hu
  have hss : "ss".toList <:+ word.map Char.toLower := ⟨u, by rw [← ht, ← hu, List.append_assoc]; rfl⟩
  rw [endsInAny_iff.mpr ⟨"ss", List.mem_cons_self, hss⟩] at hkept
  cases hkept

theorem singularWord_singularWord (word : List Char) :
    singularWord (singularWord word) = singularWord word := by
  have h := isSingularOf_singularWord word
  generalize hword : singularWord word = word' at h ⊢
  cases h with
  | same => exact hword
  | ies _ =>
      have hy : ['y'] <:+ (word.dropLast.dropLast.dropLast ++ ['y']).map Char.toLower :=
        ⟨word.dropLast.dropLast.dropLast.map Char.toLower, by rw [List.map_append]; rfl⟩
      exact singularWord_eq_of_not_s (endsInAny_eq_false hy (by decide))
  | es _ h => exact singularWord_eq_of_es h
  | s _ hkept h => exact singularWord_eq_of_s hkept h

end

/-! ### The singular of a text -/

theorem withoutFinalNewline_prefix (cs : List Char) : withoutFinalNewline cs <+: cs := by
  rw [withoutFinalNewline]
  split
  · exact List.dropLast_prefix cs
  · exact List.prefix_refl cs

/-- A text is its own singular, or its last word becomes singular. -/
theorem singular_cases (s : String) : singular s = s ∨
    ∃ head word, withoutFinalNewline s.toList = head ++ word ∧ IsLastWord head word ∧
      singular s = String.ofList (head ++ singularWord word) := by
  rw [singular]
  split
  · exact .inl rfl
  · rename_i head word hne e
    obtain ⟨hcs, h⟩ := isLastWord_of_splitLastWord e hne
    exact .inr ⟨head, word, hcs.symm, h, rfl⟩

/-- The singular of a text with a last word. -/
theorem IsLastWord.singular_ofList {head word : List Char} (h : IsLastWord head word) :
    SampleSchema.singular (String.ofList (head ++ word)) =
      String.ofList (head ++ singularWord word) := by
  obtain ⟨c, cs, rfl⟩ := List.exists_cons_of_ne_nil h.ne_nil
  rw [SampleSchema.singular, String.toList_ofList, h.withoutFinalNewline_eq, h.splitLastWord_eq]

/-- The singular of a text is its own singular. -/
theorem singular_singular (s : String) : singular (singular s) = singular s := by
  rcases singular_cases s with h | ⟨head, word, -, h, e⟩
  · rw [h, h]
  · rw [e, (h.singular (isSingularOf_singularWord word)).singular_ofList, singularWord_singularWord]

/-- The singular of a text starts with the same character, and what comes after it gets shorter. -/
theorem exists_singular_eq (s : String) : singular s = s ∨
    ∃ c cs ds, s.toList = c :: cs ∧ singular s = String.ofList (c :: ds) ∧ ShortensTo cs ds := by
  rcases singular_cases s with h | ⟨head, word, hs, h, e⟩
  · exact .inl h
  obtain ⟨rest, hrest⟩ := withoutFinalNewline_prefix s.toList
  obtain ⟨c, cs, rfl⟩ := List.exists_cons_of_ne_nil h.ne_nil
  obtain ⟨ds, hword, hds, -⟩ := (isSingularOf_singularWord (c :: cs)).exists_cons
  have hlen := hds.length_le
  rw [hs] at hrest
  rw [hword] at e
  cases head with
  | nil =>
      refine .inr ⟨c, cs ++ rest, ds, hrest.symm, e, ?_, fun d hd => ?_⟩
      · rw [List.length_append]
        omega
      · exact (hds.mem d hd).imp_left (List.mem_append_left _)
  | cons a as =>
      refine .inr ⟨a, as ++ c :: cs ++ rest, as ++ c :: ds, hrest.symm, e, ?_, fun d hd => ?_⟩
      · simp only [List.length_append, List.length_cons]
        omega
      · rcases List.mem_append.mp hd with hd | hd
        · exact .inl (List.mem_append_left _ (List.mem_append_left _ hd))
        rcases List.mem_cons.mp hd with rfl | hd
        · exact .inl (List.mem_append_left _ (List.mem_append_right _ List.mem_cons_self))
        · refine (hds.mem d hd).imp_left fun hd => ?_
          exact List.mem_append_left _ (List.mem_append_right _ (List.mem_cons_of_mem _ hd))

/-- The singular of a text is not longer. -/
theorem length_singular_le (s : String) : (singular s).length ≤ s.length := by
  rcases exists_singular_eq s with h | ⟨c, cs, ds, hs, h, hds⟩
  · rw [h]
  · rw [h, String.length_ofList, ← String.length_toList, hs, List.length_cons, List.length_cons]
    exact Nat.succ_le_succ hds.length_le

/-- The singular of a text has the characters of the text, and an y at most. -/
theorem mem_singular {c : Char} {s : String} (h : c ∈ (singular s).toList) :
    c ∈ s.toList ∨ c = 'y' := by
  rcases exists_singular_eq s with e | ⟨a, cs, ds, hs, e, hds⟩
  · exact .inl (e ▸ h)
  · rw [e, String.toList_ofList] at h
    rw [hs]
    rcases List.mem_cons.mp h with rfl | h
    · exact .inl List.mem_cons_self
    · exact (hds.mem c h).imp_left (List.mem_cons_of_mem _)

theorem IsAlphanumeric.singular {s : String} (h : IsAlphanumeric s) : IsAlphanumeric (singular s) :=
  fun c hc => by
    rcases mem_singular hc with hc | rfl
    · exact h c hc
    · rfl

/-- The singular of the name of a type is the name of a type. -/
theorem IsTypeName.singular {s : String} (h : IsTypeName s) : IsTypeName (singular s) := by
  obtain ⟨hs, c, hhead, hc⟩ := isTypeName_iff.mp h
  refine isTypeName_iff.mpr ⟨hs.singular, c, ?_, hc⟩
  rcases exists_singular_eq s with e | ⟨a, cs, ds, hs, e, -⟩
  · rw [e, hhead]
  · rw [hs] at hhead
    rw [e, String.toList_ofList, ← hhead]
    rfl

end SampleSchema
