import SampleSchema.Datum.Sample
import SampleSchema.Proofs.Outcomes

/-!
# Levels of collections

How deeply a value is nested has no influence on its sample as long as there is room for its levels
(`Datum.decodeWithin_eq_decode`), and with less room it has no other one
(`Datum.decode_of_decodeWithin`).

* `Datum.nesting` counts the levels.
-/

namespace SampleSchema

theorem mapM_congr {ε α β : Type} {f g : α → Except ε β} : ∀ {xs : List α}, (∀ x ∈ xs, f x = g x) →
    xs.mapM f = xs.mapM g
  | [], _      => rfl
  | x :: xs, h => by
      rw [List.mapM_cons, List.mapM_cons, h x List.mem_cons_self,
        mapM_congr fun y hy => h y (List.mem_cons_of_mem x hy)]

/-- A list is computed as before where each of its elements is, if it succeeds. -/
theorem mapM_of_ok {ε α β : Type} {f g : α → Except ε β} {xs : List α} {ys : List β}
    (h : ∀ x ∈ xs, ∀ y, f x = .ok y → g x = .ok y) (hf : xs.mapM f = .ok ys) :
    xs.mapM g = .ok ys := by
  rw [← hf]
  refine mapM_congr fun x hx => ?_
  obtain ⟨y, hy⟩ := exists_ok_of_mapM hf hx
  rw [hy, h x hx y hy]

namespace Datum

mutual

/-- The levels of collections in a value. -/
def nesting : Datum → Nat
  | .list ds  => nestings ds + 1
  | .tuple ds => nestings ds + 1
  | .map es   => entryNestings es + 1
  | _         => 0

/-- The levels of the deepest of some values. -/
def nestings : List Datum → Nat
  | []      => 0
  | d :: ds => max d.nesting (nestings ds)

/-- The levels of the deepest value of some entries. -/
def entryNestings : List (Datum × Datum) → Nat
  | []           => 0
  | (_, d) :: es => max d.nesting (entryNestings es)

end

theorem nesting_le_of_mem {d : Datum} : ∀ {ds : List Datum}, d ∈ ds → d.nesting ≤ nestings ds
  | e :: ds, h => by
      rw [nestings]
      rcases List.mem_cons.mp h with rfl | h
      · exact Nat.le_max_left _ _
      · exact Nat.le_trans (nesting_le_of_mem h) (Nat.le_max_right _ _)

theorem nesting_le_of_mem_entries {e : Datum × Datum} : ∀ {es : List (Datum × Datum)}, e ∈ es →
    e.2.nesting ≤ entryNestings es
  | (_, d) :: es, h => by
      rw [entryNestings]
      rcases List.mem_cons.mp h with rfl | h
      · exact Nat.le_max_left _ _
      · exact Nat.le_trans (nesting_le_of_mem_entries h) (Nat.le_max_right _ _)

/-- A value that is no collection needs no room. -/
theorem decodeWithin_of_leaf {d : Datum} (h : d.nesting = 0) (limit : Nat) :
    d.decodeWithin limit = d.decode := by
  cases d with
  | list | tuple | map => cases h
  | _ => cases limit <;> rfl

theorem fieldOf_congr {α : Type} {f g : α → Except ReadError Sample} {e : Datum × α}
    (h : f e.2 = g e.2) : fieldOf f e = fieldOf g e := by
  rw [fieldOf, fieldOf, h]

/-- With room for all of its levels, a value has the sample that it has without a limit. -/
theorem decodeWithin_eq_decode : ∀ {limit : Nat} {d : Datum}, d.nesting ≤ limit →
    d.decodeWithin limit = d.decode
  | 0, _, h         => decodeWithin_of_leaf (Nat.le_zero.mp h) 0
  | limit + 1, d, h => by
      have ih : ∀ {d : Datum}, d.nesting ≤ limit → d.decodeWithin limit = d.decode :=
        decodeWithin_eq_decode
      cases d with
      | list ds | tuple ds =>
          rw [decodeWithin, decode, decodeAll_eq_mapM, mapM_congr]
          exact fun d hd => ih (Nat.le_trans (nesting_le_of_mem hd) (Nat.le_of_succ_le_succ h))
      | map es =>
          rw [decodeWithin, decode, decodeEntries_eq_mapM, mapM_congr]
          exact fun e he => fieldOf_congr
            (ih (Nat.le_trans (nesting_le_of_mem_entries he) (Nat.le_of_succ_le_succ h)))
      | _ => exact decodeWithin_of_leaf rfl _

/-- Fields where room is limited are the same ones without a limit. -/
theorem decodeEntries_of_mapM {limit : Nat} {es : List (Datum × Datum)} {fs : List (String × Sample)}
    (h : ∀ {d : Datum} {v : Sample}, d.decodeWithin limit = .ok v → d.decode = .ok v)
    (hfs : es.mapM (fieldOf (decodeWithin limit)) = .ok fs) : decodeEntries es = .ok fs := by
  rw [decodeEntries_eq_mapM]
  refine mapM_of_ok (fun e _ f hf => ?_) hfs
  obtain ⟨n, hn, hf⟩ := ok_of_bind hf
  obtain ⟨w, hw, hf⟩ := ok_of_bind hf
  rw [fieldOf, hn, h hw]
  exact hf

/-- A value that has a sample where room is limited has the same one without a limit. -/
theorem decode_of_decodeWithin : ∀ {limit : Nat} {d : Datum} {v : Sample},
    d.decodeWithin limit = .ok v → d.decode = .ok v
  | 0, d, v, h         => by
      cases d with
      | list | tuple | map => cases h
      | _ => exact h
  | limit + 1, d, v, h => by
      have ih : ∀ {d : Datum} {v : Sample}, d.decodeWithin limit = .ok v → d.decode = .ok v :=
        decode_of_decodeWithin
      cases d with
      | list ds | tuple ds =>
          rw [decodeWithin] at h
          obtain ⟨vs, hvs, h⟩ := ok_of_bind h
          rw [decode, decodeAll_eq_mapM, mapM_of_ok (fun d _ v => ih) hvs]
          exact h
      | map es =>
          rw [decodeWithin] at h
          obtain ⟨fs, hfs, h⟩ := ok_of_bind h
          rw [decode, decodeEntries_of_mapM ih hfs]
          exact h
      | _ => exact h

theorem decodeEntries_of_ok {limit : Nat} {es : List (Datum × Datum)} {fs : List (String × Sample)}
    (hfs : es.mapM (fieldOf (decodeWithin limit)) = .ok fs) : decodeEntries es = .ok fs :=
  decodeEntries_of_mapM decode_of_decodeWithin hfs

end Datum

end SampleSchema
