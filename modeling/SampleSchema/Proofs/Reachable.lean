import SampleSchema.Proofs.Inferred

/-!
# Reachable schemas

A schema is reachable when inference and merging build it: it is the schema of a sample, under any
options, or a merge of reachable schemas.  The reachable schemas are summaries of one value or more
(`Schema.Reachable.exists_summary`), so what holds of appended lists holds of merges, and in
particular merging is associative, to the last counter (`merge_assoc_of_reachable`).
-/

namespace SampleSchema
open Observation

/-- A schema that inference and merging build.  The samples may have been seen under different
options. -/
inductive Schema.Reachable : Schema → Prop where
  | infer (o : Options) {v : Sample} (h : v.hasDistinctNames = true) : Reachable (o.infer v)
  | merge {a b : Schema} (ha : Reachable a) (hb : Reachable b) : Reachable (a.merge b)

/-- A reachable schema is the summary of the values that it was built from. -/
theorem Schema.Reachable.exists_summary {t : Schema} (h : t.Reachable) :
    ∃ xs : List Observation, xs ≠ [] ∧ t = summary xs := by
  induction h with
  | @infer o v h => exact ⟨[o.observe v], List.cons_ne_nil _ _, o.infer_eq_summary h⟩
  | merge _ _ iha ihb =>
      obtain ⟨xs, hx, rfl⟩ := iha
      obtain ⟨ys, hy, rfl⟩ := ihb
      exact ⟨xs ++ ys, fun e => hx (List.append_eq_nil_iff.mp e).1, merge_summary hx hy⟩

/-- Reachable schemas are the summaries of as many lists of values. -/
theorem exists_summaries : ∀ {ts : List Schema}, (∀ t ∈ ts, t.Reachable) →
    ∃ xss : List (List Observation), ts = xss.map summary ∧ ∀ xs ∈ xss, xs ≠ []
  | [], _ => ⟨[], rfl, by simp⟩
  | t :: ts, h => by
      obtain ⟨xs, hx, rfl⟩ := (h t List.mem_cons_self).exists_summary
      obtain ⟨xss, rfl, hxss⟩ := exists_summaries fun u hu => h u (List.mem_cons_of_mem _ hu)
      refine ⟨xs :: xss, rfl, ?_⟩
      rintro ys (_ | ⟨_, hy⟩)
      · exact hx
      · exact hxss ys hy

/-- **Merging is associative** on reachable schemas: both ways of merging three of them give the
same tree, with the same order of fields and the same counters. -/
theorem merge_assoc_of_reachable {a b c : Schema} (ha : a.Reachable) (hb : b.Reachable)
    (hc : c.Reachable) : (a.merge b).merge c = a.merge (b.merge c) := by
  obtain ⟨xs, hx, rfl⟩ := ha.exists_summary
  obtain ⟨ys, hy, rfl⟩ := hb.exists_summary
  obtain ⟨zs, hz, rfl⟩ := hc.exists_summary
  have hxy : xs ++ ys ≠ [] := fun e => hx (List.append_eq_nil_iff.mp e).1
  have hyz : ys ++ zs ≠ [] := fun e => hy (List.append_eq_nil_iff.mp e).1
  rw [merge_summary hx hy, merge_summary hy hz, merge_summary hxy hz, merge_summary hx hyz,
    List.append_assoc]

/-- Objects whose fields overlap, one with an empty array, and an array; the integers were seen
under different ranges. -/
theorem merge_assoc_of_objects :
    (((⟨[], 0, 9, by decide⟩ : Options).infer (.object [("id", .int 12), ("x", .array [])])).merge
      (({} : Options).infer (.object [("x", .array [.null]), ("id", .int 12)]))).merge
        (({} : Options).infer (.array [.int 3])) =
    ((⟨[], 0, 9, by decide⟩ : Options).infer (.object [("id", .int 12), ("x", .array [])])).merge
      ((({} : Options).infer (.object [("x", .array [.null]), ("id", .int 12)])).merge
        (({} : Options).infer (.array [.int 3]))) :=
  merge_assoc_of_reachable (.infer _ rfl) (.infer _ rfl) (.infer _ rfl)

end SampleSchema
