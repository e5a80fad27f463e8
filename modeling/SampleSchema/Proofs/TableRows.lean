import SampleSchema.Proofs.Inferred

/-!
# Rows of tables

The cells of a row stand in the columns of the header, each once and in the order in which they first
occur (`columns_rowUnder`), so that every record of a table has the same fields: a row that is too
short has nothing in its last columns, and one that is too long is refused (`IsRecord`).  A column that
is hinted holds numbers, and any other one texts (`Holds`).

What is read from a table are such records, one for each row below the header that is not empty
(`isRecord_of_read`).
-/

namespace SampleSchema.Table

/-- The columns of some cells. -/
def columns (cells : List Cell) : List (Option String) := cells.map Cell.column

theorem columns_setCell (column content : Option String) : ∀ cells : List Cell,
    columns (setCell column content cells) =
      if column ∈ columns cells then columns cells else columns cells ++ [column]
  | [] => rfl
  | cell :: cells => by
      have ih := columns_setCell column content cells
      rw [setCell]
      by_cases hc : cell.column = column
      · simp [columns, hc]
      · rw [if_neg hc]
        show cell.column :: columns (setCell column content cells) = _
        have hmem : column ∈ columns (cell :: cells) ↔ column ∈ columns cells := by
          simp [columns, Ne.symm hc]
        rw [ih]
        simp only [hmem]
        split <;> rfl

/-- A column that is there already need not be added. -/
theorem eraseDups_append_cons_of_mem {α : Type} [BEq α] [LawfulBEq α] {a : α} {as : List α}
    (ha : a ∈ as) (bs : List α) : (as ++ a :: bs).eraseDups = (as ++ bs).eraseDups := by
  rw [List.eraseDups_append, List.eraseDups_append, List.removeAll, List.filter_cons_of_neg]
  · rfl
  · simpa using ha

theorem columns_foldl_setCell : ∀ {row cells : List Cell}, (columns row).Nodup →
    columns (cells.foldl (fun row cell => setCell cell.column cell.content row) row) =
      (columns row ++ columns cells).eraseDups
  | row, [], h => by
      rw [List.foldl_nil, show columns [] = [] from rfl, List.append_nil]
      exact (Observation.eraseDups_of_nodup h).symm
  | row, cell :: cells, h => by
      have hset := columns_setCell cell.column cell.content row
      rw [List.foldl_cons, columns_foldl_setCell]
      · rw [hset, show columns (cell :: cells) = cell.column :: columns cells from rfl]
        split
        · rw [eraseDups_append_cons_of_mem ‹_›]
        · rw [List.append_assoc, List.singleton_append]
      · rw [hset]
        split
        · exact h
        · rename_i hc
          rw [List.nodup_append]
          exact ⟨h, by simp, fun c hmem d hd => by
            rintro rfl
            exact hc (List.mem_singleton.mp hd ▸ hmem)⟩

/-- A row has its columns in the order in which they first occur. -/
theorem columns_rowOf (cells : List Cell) : columns (rowOf cells) = (columns cells).eraseDups :=
  @columns_foldl_setCell [] cells List.nodup_nil

theorem zip_append_drop : ∀ header cells : List String,
    (header.zip cells).map Prod.fst ++ header.drop cells.length = header
  | [], _ => by simp
  | _ :: _, [] => by simp
  | column :: header, cell :: cells => by
      rw [List.zip_cons_cons, List.map_cons, List.length_cons, List.drop_succ_cons, List.cons_append,
        zip_append_drop header cells]

/-- The columns of a row are those of the header, and one without a name for surplus cells. -/
theorem columns_rowUnder (header cells : List String) : columns (rowUnder header cells) =
    (header.map some ++ if header.length < cells.length then [none] else []).eraseDups := by
  have hnamed : columns ((header.zip cells).map fun c => ⟨some c.1, some c.2⟩) ++
      columns ((header.drop cells.length).map fun column => ⟨some column, none⟩) =
      header.map some := by
    conv => rhs; rw [← zip_append_drop header cells]
    simp [columns, Function.comp_def]
  have hsurplus : columns (if header.length < cells.length then [⟨none, none⟩] else []) =
      if header.length < cells.length then [none] else [] := by
    split <;> rfl
  rw [rowUnder, columns_rowOf, ← hnamed, ← hsurplus]
  simp only [columns, List.map_append]

theorem eraseDups_map_some : ∀ l : List String, (l.map some).eraseDups = l.eraseDups.map some
  | [] => rfl
  | a :: l => by
      -- the tail loses the first element before the recursion, so this is not structural
      have ih := eraseDups_map_some (l.filter fun b => !b == a)
      have hfilter : (l.map some).filter (fun b => !b == some a) =
          (l.filter fun b => !b == a).map some := by
        rw [List.filter_map]
        rfl
      rw [List.map_cons, List.eraseDups_cons, List.eraseDups_cons, List.map_cons, hfilter, ih]
termination_by l => l.length
decreasing_by
  exact Nat.lt_succ_of_le (List.length_filter_le _ _)

/-! ### Records -/

/-- Whether a value may stand in a column: null, and numbers in a column that is hinted and texts in
any other one. -/
inductive Holds (hints : List String) (column : String) : Sample → Prop where
  | null : Holds hints column .null
  | int {n : Int} : column ∈ hints → Holds hints column (.int n)
  | float {x : Double} : column ∈ hints → Holds hints column (.float x)
  | text {s : String} : column ∉ hints → Holds hints column (.string s)

theorem holds_of_cellSample {hints : List String} {record : Nat} {column : String}
    {content : Option String} {v : Sample} (h : cellSample hints record column content = .ok v) :
    Holds hints column v := by
  cases content with
  | none =>
      cases h
      exact .null
  | some content =>
      rw [cellSample] at h
      split at h
      · rename_i hcolumn
        rw [numberCell] at h
        split at h
        · cases h
          exact .null
        · split at h
          · cases h
            exact .int hcolumn
          · split at h
            · obtain ⟨-, rfl⟩ := Sample.ofDouble_eq_ok_iff.mp h
              exact .float hcolumn
            · cases h
      · cases h
        exact .text ‹_›

theorem columns_of_rowFields {hints : List String} {record : Nat} : ∀ {cells : List Cell}
    {fs : List (String × Sample)}, rowFields hints record cells = .ok fs →
      columns cells = (fs.map Prod.fst).map some ∧ ∀ f ∈ fs, Holds hints f.1 f.2
  | [], _, h => by
      cases h
      exact ⟨rfl, by simp⟩
  | ⟨none, _⟩ :: _, _, h => by cases h
  | ⟨some column, content⟩ :: cells, _, h => by
      rw [rowFields] at h
      obtain ⟨v, hv, h⟩ := ok_of_bind h
      obtain ⟨fs, hfs, h⟩ := ok_of_bind h
      cases h
      obtain ⟨hcolumns, hall⟩ := columns_of_rowFields hfs
      exact ⟨congrArg (some column :: ·) hcolumns,
        List.forall_mem_cons.mpr ⟨holds_of_cellSample hv, hall⟩⟩

/-- Whether a sample is a record of a table with the given header. -/
def IsRecord (hints header : List String) (v : Sample) : Prop :=
  ∃ fs : List (String × Sample), v = .object fs ∧ fs.map Prod.fst = header.eraseDups ∧
    ∀ f ∈ fs, Holds hints f.1 f.2

/-- A row that has a sample fits under the header, whatever its number of cells is. -/
theorem isRecord_of_rowSample {hints header cells : List String} {record : Nat} {v : Sample}
    (h : rowSample hints record (rowUnder header cells) = .ok v) : IsRecord hints header v := by
  rw [rowSample] at h
  obtain ⟨fs, hfs, h⟩ := ok_of_bind h
  have hv := (Sample.eq_object_of_ofFields h).1
  obtain ⟨hcolumns, hall⟩ := columns_of_rowFields hfs
  rw [columns_rowUnder] at hcolumns
  have hfits : ¬ header.length < cells.length := by
    intro hlong
    -- the column of surplus cells has no name
    have hmem : none ∈ (fs.map Prod.fst).map some := by
      rw [← hcolumns, if_pos hlong, List.mem_eraseDups]
      simp
    simp at hmem
  rw [if_neg hfits, List.append_nil, eraseDups_map_some] at hcolumns
  exact ⟨fs, hv, (List.map_inj_right fun _ _ h => Option.some.inj h).mp hcolumns.symm, hall⟩

/-- The rows below the header that are not empty. -/
def nonEmpty (below : List (List String)) : List (List String) := below.filter (!·.isEmpty)

/-- **What is read from a table are records.**  There is one for each row below the header that is not
empty. -/
theorem isRecord_of_read {hints : List String} {text : String} {vs : List Sample}
    (h : read hints text = .ok vs) :
    rows text = ([], none) ∧ vs = [] ∨
      ∃ header below, rows text = (header :: below, none) ∧ vs.length = (nonEmpty below).length ∧
        ∀ v ∈ vs, IsRecord hints header v := by
  rcases hrows : rows text with ⟨all, problem⟩
  rw [read, hrows] at h
  cases all with
  | nil =>
      cases problem with
      | none => exact .inl ⟨rfl, (Except.ok.inj h).symm⟩
      | some p => cases h
  | cons header below =>
      rcases hrecords : records hints ((nonEmpty below).map (rowUnder header)) with
        ⟨samples, failure⟩
      have hlist : (records hints ((nonEmpty below).map (rowUnder header))).1 = samples :=
        congrArg Prod.fst hrecords
      have hfailure : (records hints ((nonEmpty below).map (rowUnder header))).2 = failure :=
        congrArg Prod.snd hrecords
      rw [nonEmpty] at hrecords
      dsimp only at h
      rw [hrecords] at h
      cases failure with
      | some e => cases h
      | none =>
          cases problem with
          | some p => cases h
          | none =>
              obtain rfl : samples = vs := Except.ok.inj h
              refine .inr ⟨header, below, rfl, ?_, fun v hv => ?_⟩
              · have hlength := length_recordsFrom hints _ 1 hfailure
                rwa [List.length_map, show recordsFrom hints 1 _ = records hints _ from rfl,
                  hlist] at hlength
              · obtain ⟨row, hrow, n, hn⟩ := exists_row_of_recordsFrom v (hlist.symm ▸ hv)
                obtain ⟨cells, -, rfl⟩ := List.mem_map.mp hrow
                exact isRecord_of_rowSample hn

end SampleSchema.Table
