import SampleSchema.Inference.Run
import SampleSchema.Proofs.DistinctNames
import SampleSchema.Proofs.SummaryMerge

/-!
# Inferred schemas are summaries

The schema of a sample is the summary of its observation (`infer_eq_summary`), so any way of merging
the schemas of samples gives the summary of their observations: from left to right
(`mergeAll_summaries`) and in adjacent pairs (`mergeTree_summaries`).

The objects of a sample have to have distinct field names, as those of any sample that is read do
(`Format.hasDistinctNames_of_read`).
-/

namespace SampleSchema

namespace Observation

/-! ### The summary of one value -/

theorem summary_number (p : NumberPart) : summary [.number p] = p.toSchema := by
  rw [summary, summaryWith_eq_assemble]
  cases p <;> rfl

theorem summary_string (p : StringPart) : summary [.string p] = p.toSchema := by
  rw [summary, summaryWith_eq_assemble]
  cases p <;> rfl

/-- What is seen of a single array is summarized by its items. -/
theorem summary_array (as : List Observation) :
    summary [.array as] = if as = [] then .array .null true else .array (summary as) false := by
  have hi : items [.array as] = as := List.append_nil as
  have ha : arrayPart [.array as] =
      if as = [] then some ⟨.null, true⟩ else some ⟨summary as, false⟩ := by
    rw [arrayPart, hi]
    rfl
  have hp : partsOf [.array as] = { array := arrayPart [.array as] } := rfl
  rw [summary, summaryWith_eq_assemble, hp, ha]
  split <;> rfl

/-- A list without repetitions has none to lose. -/
theorem eraseDups_of_nodup {α : Type} [BEq α] [LawfulBEq α] : ∀ {l : List α}, l.Nodup →
    l.eraseDups = l
  | [], _ => rfl
  | a :: l, h => by
      obtain ⟨ha, hl⟩ := List.nodup_cons.mp h
      have hf : (l.filter fun b => !b == a) = l :=
        List.filter_eq_self.mpr fun b hb => by
          have : b ≠ a := fun e => ha (e ▸ hb)
          simpa using this
      rw [List.eraseDups_cons, hf, eraseDups_of_nodup hl]

/-- With distinct names a member is found under its name. -/
theorem lookup_of_mem {name : String} {x : Observation} : ∀ {fs : List (String × Observation)},
    (fs.map Prod.fst).Nodup → (name, x) ∈ fs → fs.lookup name = some x
  | [], _, h => by cases h
  | f :: fs, hn, h => by
      obtain ⟨hf, hn⟩ := List.nodup_cons.mp hn
      rcases List.mem_cons.mp h with rfl | h
      · exact List.lookup_cons_self
      · have hne : name ≠ f.1 := fun e => hf (e ▸ List.mem_map_of_mem h)
        rw [List.lookup_cons, beq_false_of_ne hne]
        exact lookup_of_mem hn h

/-- An object on its own has the fields that it has, each seen once. -/
theorem summary_object {fs : List (String × Observation)} (hn : (fs.map Prod.fst).Nodup) :
    summary [.object fs] =
      .object none 1 (fs.map fun f => ⟨f.1, summary [f.2], false, 1, 1⟩) := by
  have hfields : (names [fs]).map (fieldOf [fs]) =
      fs.map fun f => ⟨f.1, summary [f.2], false, 1, 1⟩ := by
    rw [names, List.flatMap_singleton, eraseDups_of_nodup hn, List.map_map]
    refine List.map_congr_left fun f hf => ?_
    have hv : valuesUnder f.1 [fs] = [f.2] := by
      rw [valuesUnder, List.filterMap_cons, lookup_of_mem hn hf, List.filterMap_nil]
    simp only [Function.comp_apply, fieldOf, hv]
    rfl
  rw [summary, summaryWith_eq_assemble, ← hfields]
  rfl

end Observation

open Observation

/-! ### Folds of summaries -/

/-- Merging summaries one after the other summarizes everything seen. -/
theorem foldl_merge_summaries : ∀ {xss : List (List Observation)} {xs : List Observation},
    xs ≠ [] → (∀ ys ∈ xss, ys ≠ []) →
      (xss.map summary).foldl Schema.merge (summary xs) = summary (xs ++ xss.flatten)
  | [], xs, _, _ => by rw [List.flatten_nil, List.append_nil]; rfl
  | ys :: xss, xs, hx, h => by
      have hys : ys ≠ [] := h ys List.mem_cons_self
      have hxy : xs ++ ys ≠ [] := fun e => hx (List.append_eq_nil_iff.mp e).1
      rw [List.map_cons, List.foldl_cons, merge_summary hx hys,
        foldl_merge_summaries hxy fun zs hz => h zs (List.mem_cons_of_mem ys hz),
        List.flatten_cons, List.append_assoc]

/-- Merging summaries from left to right. -/
theorem mergeAll_summaries (xss : List (List Observation)) (hne : xss ≠ [])
    (h : ∀ xs ∈ xss, xs ≠ []) : mergeAll (xss.map summary) = some (summary xss.flatten) := by
  cases xss with
  | nil => exact absurd rfl hne
  | cons xs xss =>
      rw [List.map_cons, mergeAll, foldl_merge_summaries (h xs List.mem_cons_self)
        fun ys hy => h ys (List.mem_cons_of_mem xs hy), List.flatten_cons]

/-- One level of merges in adjacent pairs: half as many summaries, of the same values in order. -/
theorem mergePairs_summaries : ∀ xss : List (List Observation), (∀ xs ∈ xss, xs ≠ []) →
    ∃ yss : List (List Observation), mergePairs (xss.map summary) = yss.map summary ∧
      yss.flatten = xss.flatten ∧ yss.length = (xss.length + 1) / 2 ∧ ∀ ys ∈ yss, ys ≠ []
  | [], h => ⟨[], rfl, rfl, rfl, h⟩
  | [xs], h => ⟨[xs], rfl, rfl, by simp, h⟩
  | xs :: ys :: xss, h => by
      -- the first two summaries become one, and a last one without a partner stays
      have hx : xs ≠ [] := h xs List.mem_cons_self
      have hy : ys ≠ [] := h ys (List.mem_cons_of_mem _ List.mem_cons_self)
      obtain ⟨yss, hm, hf, hl, hne⟩ := mergePairs_summaries xss fun zs hz =>
        h zs (List.mem_cons_of_mem _ (List.mem_cons_of_mem _ hz))
      refine ⟨(xs ++ ys) :: yss, ?_, ?_, ?_, ?_⟩
      · rw [List.map_cons, List.map_cons, mergePairs, hm, merge_summary hx hy, List.map_cons]
      · rw [List.flatten_cons, hf, List.flatten_cons, List.flatten_cons, List.append_assoc]
      · simp only [List.length_cons]
        omega
      · rintro zs (_ | ⟨_, hz⟩)
        · exact fun e => hx (List.append_eq_nil_iff.mp e).1
        · exact hne zs hz

/-- Merging summaries in adjacent pairs, level by level. -/
theorem mergeTree_summaries : ∀ xss : List (List Observation), xss ≠ [] →
    (∀ xs ∈ xss, xs ≠ []) → mergeTree (xss.map summary) = some (summary xss.flatten)
  | [], hne, _ => absurd rfl hne
  | [xs], _, _ => by
      rw [List.map_singleton, mergeTree, List.flatten_cons, List.flatten_nil, List.append_nil]
  | xs :: ys :: xss, _, h => by
      obtain ⟨yss, hm, hf, hl, hne⟩ := mergePairs_summaries _ h
      -- the next level is shorter and holds the same values in the same order
      have hlt : yss.length < (xs :: ys :: xss).length ∧ yss ≠ [] := by
        simp only [← List.length_pos_iff, List.length_cons] at hl ⊢
        omega
      calc mergeTree ((xs :: ys :: xss).map summary)
        _ = mergeTree (mergePairs ((xs :: ys :: xss).map summary)) := by
            rw [List.map_cons, List.map_cons, mergeTree, mergePairs]
        _ = some (summary yss.flatten) := by rw [hm, mergeTree_summaries yss hlt.2 hne]
        _ = some (summary (xs :: ys :: xss).flatten) := by rw [hf]
termination_by xss => xss.length
decreasing_by
  exact hlt.1

/-- The singletons of the elements of a list. -/
theorem flatten_singletons (xs : List Observation) : (xs.map fun x => [x]).flatten = xs := by
  rw [← List.flatMap_def, List.flatMap_singleton']

/-- Merging what each value is summarized by, from the left, summarizes all values. -/
theorem mergeAll_singletons {xs : List Observation} (hx : xs ≠ []) :
    mergeAll (xs.map fun x => summary [x]) = some (summary xs) := by
  have h := mergeAll_summaries (xs.map fun x => [x]) (hx ∘ List.map_eq_nil_iff.mp) (by simp)
  rwa [flatten_singletons, List.map_map] at h

theorem mergeTree_singletons {xs : List Observation} (hx : xs ≠ []) :
    mergeTree (xs.map fun x => summary [x]) = some (summary xs) := by
  have h := mergeTree_summaries (xs.map fun x => [x]) (hx ∘ List.map_eq_nil_iff.mp) (by simp)
  rwa [flatten_singletons, List.map_map] at h

/-! ### The schema of one sample -/

namespace Options

mutual

/-- The schema of a sample is the summary of its observation. -/
theorem infer_eq_summary (o : Options) : ∀ {v : Sample}, v.hasDistinctNames = true →
    o.infer v = summary [o.observe v]
  | .null, _ | .bool _, _ => by
      rw [infer, observe, summary, summaryWith_eq_assemble]
      rfl
  | .int n, _ => by
      rw [infer, observe, summary_number, inferInt]
      split <;> rfl
  | .float _, _ => by
      rw [infer, observe, summary_number]
      rfl
  | .string s, _ => by
      rw [infer, observe, summary_string, inferText, textPart]
      rcases meaning? o.layouts s with _ | (_ | _) <;> rfl
  | .array items, h => by
      -- items are merged from left to right, and without items there is a placeholder
      rw [infer, observe, summary_array, inferAll_eq_summaries o h]
      by_cases hi : o.observeAll items = []
      · rw [hi, if_pos rfl]
        rfl
      · rw [mergeAll_singletons hi, if_neg hi]
  | .object fields, h => by
      obtain ⟨hn, hf⟩ := (Bool.and_eq_true _ _).mp h
      have hmap : (o.observeFields fields).map Prod.fst = fields.map Prod.fst := by
        rw [observeFields_eq_map, List.map_map]; rfl
      rw [infer, observe, summary_object (hmap ▸ of_decide_eq_true hn),
        inferFields_eq_summaries o hf]

theorem inferAll_eq_summaries (o : Options) : ∀ {vs : List Sample},
    allHaveDistinctNames vs = true → o.inferAll vs = (o.observeAll vs).map fun x => summary [x]
  | [], _ => rfl
  | v :: vs, h => by
      obtain ⟨hv, hvs⟩ := (Bool.and_eq_true _ _).mp h
      rw [inferAll, observeAll, List.map_cons, infer_eq_summary o hv, inferAll_eq_summaries o hvs]

theorem inferFields_eq_summaries (o : Options) : ∀ {fs : List (String × Sample)},
    fieldsHaveDistinctNames fs = true →
      o.inferFields fs = (o.observeFields fs).map fun f => ⟨f.1, summary [f.2], false, 1, 1⟩
  | [], _ => rfl
  | (n, v) :: fs, h => by
      obtain ⟨hv, hfs⟩ := (Bool.and_eq_true _ _).mp h
      rw [inferFields, observeFields, List.map_cons, infer_eq_summary o hv,
        inferFields_eq_summaries o hfs]

end

end Options

end SampleSchema
