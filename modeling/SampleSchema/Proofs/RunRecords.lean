import Mathlib.Data.List.Nodup
import SampleSchema.Service

/-!
# Records of stored runs

What is known of a stored run outside of the service is a `RunRecord`.  It has no number: that is its
place among all runs, counted from one.  Where these are all the runs that have been stored, `rows` are
the rows of the database, and what the database works out from its rows can be told from the records:

* the number of the next row (`nextNumber_rows`) and the row of a number (`find?_rows`);
* the rows from the newest to the oldest, a page at a time (`page_rows`).  Pages of one size, put one
  after the other, show every run once (`flatMap_window`).
-/

namespace SampleSchema

/-- What is known of a stored run outside of the service. -/
structure RunRecord where
  format       : String
  rootTypeName : String
  sampleCount  : Int
  root         : Json
  definitions  : List Json
  conflicts    : List Json
  createdAt    : Moment

namespace RunRecord

/-- The record of a report on samples in a format. -/
def of (f : Format) (r : Report) (createdAt : Moment) : RunRecord where
  format       := f.name
  rootTypeName := r.rootTypeName
  sampleCount  := r.sampleCount
  root         := r.root.toJson
  definitions  := r.definitions.map DefinitionReport.toJson
  conflicts    := r.conflicts.map Conflict.toJson
  createdAt    := createdAt

/-- What a submission is answered, with the number of the run if it is stored. -/
def posted (number : Option Nat) (r : RunRecord) : Json :=
  .object [("inference_run_id", Json.ofNat? number), ("root_type_name", .string r.rootTypeName),
    ("sample_count", .int r.sampleCount), ("root", r.root), ("definitions", .array r.definitions),
    ("conflicts", .array r.conflicts)]

/-- What is shown of the run of a number. -/
def shown (number : Nat) (r : RunRecord) : Json :=
  .object [("id", .int number), ("created_at", .string r.createdAt.text),
    ("source_format", .string r.format), ("root_type_name", .string r.rootTypeName),
    ("sample_count", .int r.sampleCount), ("definition_count", .int r.definitions.length),
    ("conflict_count", .int r.conflicts.length), ("root_json", r.root),
    ("definitions_json", .array r.definitions), ("conflicts_json", .array r.conflicts)]

/-- What is stored of a run. -/
def run (r : RunRecord) : Run where
  format          := r.format
  rootTypeName    := r.rootTypeName
  sampleCount     := r.sampleCount
  definitionCount := r.definitions.length
  conflictCount   := r.conflicts.length
  root            := r.root
  definitions     := r.definitions
  conflicts       := r.conflicts

/-- The row of the run of a number. -/
def stored (number : Nat) (r : RunRecord) : StoredRun := ⟨r.run, number, r.createdAt⟩

/-- What is stored of a report is what its record tells. -/
theorem run_of (f : Format) (r : Report) (createdAt : Moment) :
    (of f r createdAt).run = Run.of f r := by
  simp only [run, of, Run.of, List.length_map]

theorem posted_of (f : Format) (r : Report) (createdAt : Moment) (number : Option Nat) :
    (of f r createdAt).posted number = { r with runId := number }.toJson := rfl

/-- The rows of runs, in the order in which they were stored. -/
def rows (xs : List RunRecord) : List StoredRun := (xs.zipIdx 1).map fun x => x.1.stored x.2

theorem length_rows (xs : List RunRecord) : (rows xs).length = xs.length := by
  rw [rows, List.length_map, List.length_zipIdx]

/-- A new run is the last row. -/
theorem rows_concat (xs : List RunRecord) (x : RunRecord) :
    rows (xs ++ [x]) = rows xs ++ [x.stored (xs.length + 1)] := by
  rw [rows, List.zipIdx_append, List.map_append, Nat.add_comm]
  rfl

/-- The rows have the numbers from one on. -/
theorem map_id_rows (xs : List RunRecord) : (rows xs).map (·.id) = List.range' 1 xs.length := by
  rw [rows, List.map_map]
  exact List.zipIdx_map_snd 1 xs

theorem foldr_max_range' : ∀ n first : Nat,
    (List.range' (first + 1) n).foldr max 0 = if n = 0 then 0 else first + n
  | 0, _         => rfl
  | n + 1, first => by
      rw [List.range'_succ, List.foldr_cons, foldr_max_range' n (first + 1)]
      split <;> simp <;> omega

/-- The next row is numbered by how many runs there are with it. -/
theorem nextNumber_rows (xs : List RunRecord) : Database.nextNumber (rows xs) = xs.length + 1 := by
  rw [Database.nextNumber, map_id_rows, foldr_max_range' xs.length 0]
  split <;> omega

theorem find?_zipIdx (number : Nat) : ∀ (xs : List RunRecord) (first : Nat),
    (xs.zipIdx first).find? (fun x => decide ((x.1.stored x.2).id = number)) =
      if first ≤ number then xs[number - first]?.map fun x => (x, number) else none
  | [], first => by simp
  | x :: xs, first => by
      rw [List.zipIdx_cons, List.find?_cons]
      by_cases h : first = number
      · subst h
        simp [stored]
      · rw [decide_eq_false (show ¬ (x.stored first).id = number from h)]
        simp only [find?_zipIdx number xs (first + 1)]
        by_cases hle : first + 1 ≤ number
        · obtain ⟨n, rfl⟩ := Nat.exists_eq_add_of_le hle
          have hn : first + 1 + n - first = n + 1 := by omega
          rw [if_pos hle, if_pos (by omega), hn, List.getElem?_cons_succ, Nat.add_sub_cancel_left]
        · rw [if_neg hle, if_neg (by omega)]

/-- A run is found under its number. -/
theorem find?_rows (xs : List RunRecord) {number : Nat} (h : 1 ≤ number) :
    (rows xs).find? (·.id = number) = xs[number - 1]?.map (·.stored number) := by
  have hfind := find?_zipIdx number xs 1
  rw [if_pos h] at hfind
  rw [rows, List.find?_map]
  exact (congrArg (Option.map _) hfind).trans (by rw [Option.map_map]; rfl)

/-- The rows from the newest to the oldest are those from the last to the first. -/
theorem newestFirst_rows (xs : List RunRecord) : Database.newestFirst (rows xs) = (rows xs).reverse := by
  have hids : (rows xs).Pairwise (fun a b => a.id < b.id) := by
    rw [← List.pairwise_map (f := StoredRun.id), map_id_rows]
    exact List.pairwise_lt_range'
  have hinjective := List.inj_on_of_nodup_map (f := StoredRun.id)
    (show ((rows xs).map (·.id)).Nodup from map_id_rows xs ▸ List.nodup_range')
  have hsorted : (Database.newestFirst (rows xs)).Pairwise
      (fun a b => decide (b.id ≤ a.id) = true) := by
    refine List.pairwise_mergeSort (fun a b c => ?_) (fun a b => ?_) _
    · simp only [decide_eq_true_eq]
      omega
    · simp only [Bool.or_eq_true, decide_eq_true_eq]
      omega
  have hreversed : (rows xs).reverse.Pairwise (fun a b => decide (b.id ≤ a.id) = true) := by
    rw [List.pairwise_reverse]
    exact hids.imp fun h => decide_eq_true (Nat.le_of_lt h)
  refine List.Perm.eq_of_pairwise (fun a b ha hb hab hba => ?_) hsorted hreversed
    ((List.mergeSort_perm _ _).trans (List.reverse_perm _).symm)
  have ha : a ∈ rows xs := (List.mergeSort_perm _ _).mem_iff.mp ha
  exact hinjective ha (List.mem_reverse.mp hb)
    (Nat.le_antisymm (of_decide_eq_true hba) (of_decide_eq_true hab))

/-! ### Pages -/

/-- Runs with their numbers, the newest first. -/
def newest (xs : List RunRecord) : List (RunRecord × Nat) := (xs.zipIdx 1).reverse

/-- At most `limit` of the newest runs after the newest `offset` ones. -/
def window (limit offset : Nat) (xs : List RunRecord) : List (RunRecord × Nat) :=
  ((newest xs).drop offset).take limit

/-- Pages of one size after each other are a larger page. -/
theorem flatMap_window (limit : Nat) (xs : List RunRecord) : ∀ pages : Nat,
    (List.range pages).flatMap (fun p => window limit (p * limit) xs) =
      window (pages * limit) 0 xs
  | 0 => by rw [Nat.zero_mul, window, List.take_zero, List.range_zero, List.flatMap_nil]
  | pages + 1 => by
      rw [List.range_succ, List.flatMap_append, flatMap_window limit xs pages,
        List.flatMap_singleton, Nat.succ_mul]
      simp only [window, List.drop_zero]
      exact List.take_add.symm

theorem length_newest (xs : List RunRecord) : (newest xs).length = xs.length := by
  rw [newest, List.length_reverse, List.length_zipIdx]

/-- A page with room for all runs shows all of them. -/
theorem window_of_length_le {limit : Nat} {xs : List RunRecord} (h : xs.length ≤ limit) :
    window limit 0 xs = newest xs := List.take_of_length_le ((length_newest xs).symm ▸ h)

/-- Past the last run a page is empty. -/
theorem window_of_le_offset (limit : Nat) {offset : Nat} {xs : List RunRecord}
    (h : xs.length ≤ offset) : window limit offset xs = [] := by
  rw [window, List.drop_eq_nil_of_le ((length_newest xs).symm ▸ h), List.take_nil]

/-- A page of rows shows the runs of a window. -/
theorem page_rows (limit offset : Nat) (xs : List RunRecord) :
    ((Database.newestFirst (rows xs)).drop offset).take limit =
      (window limit offset xs).map fun x => x.1.stored x.2 := by
  rw [newestFirst_rows, rows, ← List.map_reverse, ← List.map_drop, ← List.map_take]
  rfl

end RunRecord

end SampleSchema
