import Mathlib.Data.List.DropRight
import SampleSchema.Proofs.TableRows

/-!
# Rows of tables up to the first bad one

What a cell gives is said by `Cell.Gives`.  A cell that gives nothing offends (`Cell.Offends`): it
stands beyond the last column, or in a column of numbers without holding a finite one.  A row is bad
when one of its cells offends.  Reading rows gives a record for each row before the first bad one and
stops there, with a complaint about the first cell of that row that offends
(`records_up_to_bad_row`).

Both say of the text of a cell what it is without the blanks around it, while a number is read from the
cell as it is: reading drops these blanks by itself (`Literal.characters_trim`).
-/

namespace SampleSchema

/-! ### Blanks -/

namespace Text

theorem trimChars_eq (cs : List Char) :
    trimChars cs = (cs.dropWhile isBlank).rdropWhile isBlank := rfl

/-- Once the blanks at both ends are gone there are none. -/
theorem trimChars_trimChars (cs : List Char) : trimChars (trimChars cs) = trimChars cs := by
  have hstart : (trimChars cs).dropWhile isBlank = trimChars cs := by
    -- what is left is a prefix of a text that does not start with a blank
    have hprefix : trimChars cs <+: cs.dropWhile isBlank := List.rdropWhile_prefix _ _
    have hself := List.dropWhile_idempotent isBlank cs
    cases htrim : trimChars cs with
    | nil => rfl
    | cons d ds =>
        rw [htrim] at hprefix
        obtain ⟨rest, hrest⟩ := hprefix
        rw [← hrest, List.cons_append, List.dropWhile_eq_self_iff] at hself
        exact List.dropWhile_cons_of_neg (hself (Nat.succ_pos _))
  rw [trimChars_eq (trimChars cs), hstart, trimChars_eq, List.rdropWhile_idempotent]

/-- Nothing is left of a text of blanks, and only of such a text. -/
theorem trim_eq_empty_iff {s : String} : trim s = "" ↔ isBlankText s = true := by
  rw [trim, String.ofList_eq_empty_iff, trimChars_eq, List.rdropWhile_eq_nil_iff,
    ← List.dropWhile_eq_nil_iff, List.dropWhile_idempotent, List.dropWhile_eq_nil_iff, isBlankText,
    List.all_eq_true]

end Text

namespace Literal
open Text

/-- The blanks around a literal do not count. -/
theorem characters_trim (s : String) : characters (trim s) = characters s := by
  rw [characters, characters, trim, String.toList_ofList, trimChars_trimChars]

/-- Blanks around an integer do not count. -/
theorem integer?_trim (s : String) : integer? (trim s) = integer? s := by
  rw [integer?, integer?, integerIn?, integerIn?, characters_trim]

/-- Blanks around a number do not count. -/
theorem double?_trim (s : String) : double? (trim s) = double? s := by
  rw [double?, double?, characters_trim]

end Literal

namespace Table

/-! ### Cells -/

/-- What a cell gives, with its column: null where nothing stands, also in a column of numbers where
blanks stand, the text as it is in other columns, and in a column of numbers the integer that it
writes, or else the finite double. -/
inductive Cell.Gives (hints : List String) : Cell → String × Sample → Prop where
  | missing (column : String) : Gives hints ⟨some column, none⟩ (column, .null)
  | text {column : String} (content : String) (h : column ∉ hints) :
      Gives hints ⟨some column, some content⟩ (column, .string content)
  | blank {column content : String} (h : column ∈ hints) (hb : Text.trim content = "") :
      Gives hints ⟨some column, some content⟩ (column, .null)
  | int {column content : String} {n : Int} (h : column ∈ hints)
      (hn : Literal.integer? (Text.trim content) = some n) :
      Gives hints ⟨some column, some content⟩ (column, .int n)
  | float {column content : String} {x : Double} (h : column ∈ hints)
      (hn : Literal.integer? (Text.trim content) = none)
      (hx : Literal.double? (Text.trim content) = some x) (hf : x.isFinite = true) :
      Gives hints ⟨some column, some content⟩ (column, .float x)

/-- Whether a text that is not blank writes neither an integer nor a finite double. -/
def IsNoNumber (content : String) : Prop :=
  Text.trim content ≠ "" ∧ Literal.integer? (Text.trim content) = none ∧
    ∀ x, Literal.double? (Text.trim content) = some x → x.isFinite = false

/-- Whether a cell offends: it stands beyond the last column, or it is no number where one has to
stand. -/
def Cell.Offends (hints : List String) (cell : Cell) : Prop :=
  cell.column = none ∨
    ∃ column ∈ hints, ∃ content, cell = ⟨some column, some content⟩ ∧ IsNoNumber content

/-- Whether a row is bad. -/
def IsBad (hints : List String) (row : List Cell) : Prop := ∃ cell ∈ row, cell.Offends hints

/-- What is said of a cell that offends in the given record.  A number that is not finite is shown by
itself. -/
inductive Cell.Complaint (record : Nat) : Cell → String → Prop where
  | surplus (content : Option String) : Complaint record ⟨none, content⟩
      ("Record " ++ Nat.repr record ++ " has more cells than header columns")
  | notNumeric {column content : String} (h : Literal.double? (Text.trim content) = none) :
      Complaint record ⟨some column, some content⟩
        ("Record " ++ Nat.repr record ++ " column " ++ Text.quoted column ++ " is not numeric: " ++
          Text.quoted content)
  | nonFinite {column content : String} {x : Double}
      (h : Literal.double? (Text.trim content) = some x) :
      Complaint record ⟨some column, some content⟩
        ("Non-finite number is not representable: " ++ x.text)

/-- A cell that gives a value is not at fault. -/
theorem not_offends_of_gives {hints : List String} {cell : Cell} {f : String × Sample}
    (h : cell.Gives hints f) : ¬ cell.Offends hints := by
  rintro (hsurplus | ⟨column, hcolumn, content, rfl, hblank, hint, hdouble⟩)
  · cases h <;> cases hsurplus
  · cases h with
    | text _ h => exact h hcolumn
    | blank _ hb => exact hblank hb
    | int _ hn => exact absurd (hn.symm.trans hint) (by simp)
    | float _ _ hx hf => exact absurd (hf.symm.trans (hdouble _ hx)) (by simp)

section
variable {hints : List String} (record : Nat)

/-- A number is read, or there is none where one has to stand. -/
theorem numberCell_cases {column : String} (hcolumn : column ∈ hints) (content : String) :
    (∃ v, numberCell record column content = .ok v ∧
      Cell.Gives hints ⟨some column, some content⟩ (column, v)) ∨
    ∃ e, numberCell record column content = .error e ∧ IsNoNumber content ∧
      Cell.Complaint record ⟨some column, some content⟩ e.message := by
  rw [numberCell]
  by_cases hblank : Text.isBlankText content = true
  · rw [if_pos hblank]
    exact .inl ⟨_, rfl, .blank hcolumn (Text.trim_eq_empty_iff.mpr hblank)⟩
  have htrim : Text.trim content ≠ "" := fun h => hblank (Text.trim_eq_empty_iff.mp h)
  rw [if_neg hblank, ← Literal.integer?_trim, ← Literal.double?_trim]
  cases hint : Literal.integer? (Text.trim content) with
  | some n => exact .inl ⟨_, rfl, .int hcolumn hint⟩
  | none =>
      cases hdouble : Literal.double? (Text.trim content) with
      | none =>
          refine .inr ⟨_, rfl, ⟨htrim, hint, ?_⟩, .notNumeric hdouble⟩
          intro x hx
          cases hdouble.symm.trans hx
      | some x =>
          dsimp only
          rw [Sample.ofDouble]
          by_cases hfinite : x.isFinite = true
          · rw [if_pos hfinite]
            exact .inl ⟨_, rfl, .float hcolumn hint hdouble hfinite⟩
          · rw [if_neg hfinite]
            refine .inr ⟨_, rfl, ⟨htrim, hint, ?_⟩, .nonFinite hdouble⟩
            intro y hy
            cases hdouble.symm.trans hy
            exact Bool.eq_false_iff.mpr hfinite

variable (hints) in

/-- A cell gives a value, or it is at fault and the complaint is about it. -/
theorem cellSample_cases (column : String) (content : Option String) :
    (∃ v, cellSample hints record column content = .ok v ∧
      Cell.Gives hints ⟨some column, content⟩ (column, v)) ∨
    ∃ e, cellSample hints record column content = .error e ∧
      Cell.Offends hints ⟨some column, content⟩ ∧
        Cell.Complaint record ⟨some column, content⟩ e.message := by
  cases content with
  | none => exact .inl ⟨_, rfl, .missing column⟩
  | some content =>
      rw [cellSample]
      by_cases hcolumn : column ∈ hints
      · rw [if_pos hcolumn]
        rcases numberCell_cases record hcolumn content with hok | ⟨e, he, hno, hc⟩
        · exact .inl hok
        · exact .inr ⟨e, he, .inr ⟨column, hcolumn, content, rfl, hno⟩, hc⟩
      · rw [if_neg hcolumn]
        exact .inl ⟨_, rfl, .text content hcolumn⟩

end

/-! ### Rows -/

/-- The record of a row: what its cells give, in order. -/
def Gives (hints : List String) (row : List Cell) (v : Sample) : Prop :=
  ∃ fs : List (String × Sample), v = .object fs ∧ List.Forall₂ (Cell.Gives hints) row fs

/-- A complaint about the first cell of a row that offends. -/
def FirstComplaint (hints : List String) (record : Nat) (row : List Cell) (text : String) : Prop :=
  ∃ before cell after, row = before ++ cell :: after ∧ (∀ c ∈ before, ¬ c.Offends hints) ∧
    cell.Offends hints ∧ cell.Complaint record text

theorem FirstComplaint.isBad {hints : List String} {record : Nat} {row : List Cell} {text : String}
    (h : FirstComplaint hints record row text) : IsBad hints row := by
  obtain ⟨before, cell, after, rfl, -, hcell, -⟩ := h
  exact ⟨cell, by simp, hcell⟩

theorem not_isBad_of_gives {hints : List String} {row : List Cell} {v : Sample}
    (h : Gives hints row v) : ¬ IsBad hints row := by
  obtain ⟨fs, -, h⟩ := h
  rintro ⟨cell, hcell, hoffends⟩
  induction h with
  | nil => cases hcell
  | cons hf _ ih =>
      rcases List.mem_cons.mp hcell with rfl | hcell
      · exact not_offends_of_gives hf hoffends
      · exact ih hcell

section
variable (hints : List String) (record : Nat)

/-- Cells are read one by one, up to the first that offends. -/
theorem rowFields_cases (row : List Cell) :
    (∃ fs, rowFields hints record row = .ok fs ∧ List.Forall₂ (Cell.Gives hints) row fs) ∨
    ∃ e, rowFields hints record row = .error e ∧ FirstComplaint hints record row e.message := by
  induction row with
  | nil => exact .inl ⟨[], rfl, .nil⟩
  | cons cell cells ih =>
      obtain ⟨column, content⟩ := cell
      cases column with
      | none =>
          exact .inr ⟨_, rfl, [], _, cells, rfl, by simp, .inl rfl, .surplus content⟩
      | some column =>
          rw [rowFields]
          rcases cellSample_cases hints record column content with
            ⟨v, hv, hgives⟩ | ⟨e, he, hoffends, hc⟩
          · rw [hv]
            rcases ih with ⟨fs, hfs, hall⟩ | ⟨e, he, before, cell, after, rfl, hbefore, hcell⟩
            · rw [hfs]
              exact .inl ⟨_, rfl, .cons hgives hall⟩
            · rw [he]
              refine .inr ⟨e, rfl, _ :: before, cell, after, rfl, ?_, hcell⟩
              exact List.forall_mem_cons.mpr ⟨not_offends_of_gives hgives, hbefore⟩
          · rw [he]
            exact .inr ⟨e, rfl, [], _, cells, rfl, by simp, hoffends, hc⟩

/-- A row of distinct columns has its record, or is complained about. -/
theorem rowSample_cases {row : List Cell} (h : (columns row).Nodup) :
    (∃ v, rowSample hints record row = .ok v ∧ Gives hints row v) ∨
    ∃ e, rowSample hints record row = .error e ∧ FirstComplaint hints record row e.message := by
  rw [rowSample]
  rcases rowFields_cases hints record row with ⟨fs, hfs, hall⟩ | ⟨e, he, hc⟩
  · have hnames : (fs.map Prod.fst).Nodup := by
      rw [(columns_of_rowFields hfs).1] at h
      exact List.Pairwise.of_map some (fun a b hne e => hne (congrArg some e)) h
    rw [hfs]
    exact .inl ⟨_, Sample.ofFields_eq_ok_iff.mpr hnames, fs, rfl, hall⟩
  · rw [he]
    exact .inr ⟨e, rfl, hc⟩

end

/-! ### Tables -/

/-- How reading ends at the rows that are left, the first of which is the given record: there are none,
or the first one is complained about. -/
inductive Ends (hints : List String) (record : Nat) :
    List (List Cell) → Option Malformed → Prop where
  | complete : Ends hints record [] none
  | stopped {row : List Cell} {e : Malformed} (h : FirstComplaint hints record row e.message)
      (rows : List (List Cell)) : Ends hints record (row :: rows) (some e)

theorem recordsFrom_up_to_bad_row (hints : List String) {rows : List (List Cell)} (record : Nat)
    (h : ∀ row ∈ rows, (columns row).Nodup) : ∃ before after, rows = before ++ after ∧
      (∀ row ∈ before, ¬ IsBad hints row) ∧
      List.Forall₂ (Gives hints) before (recordsFrom hints record rows).1 ∧
      Ends hints (record + before.length) after (recordsFrom hints record rows).2 := by
  induction rows generalizing record with
  | nil => exact ⟨[], [], rfl, by simp, .nil, .complete⟩
  | cons row rows ih =>
      obtain ⟨hrow, hrows⟩ := List.forall_mem_cons.mp h
      rw [recordsFrom]
      rcases rowSample_cases hints record hrow with ⟨v, hv, hgives⟩ | ⟨e, he, hc⟩
      · obtain ⟨before, after, rfl, hgood, hbefore, hends⟩ := ih (record + 1) hrows
        rw [hv]
        refine ⟨row :: before, after, rfl, ?_, .cons hgives hbefore, ?_⟩
        · exact List.forall_mem_cons.mpr ⟨not_isBad_of_gives hgives, hgood⟩
        · rwa [List.length_cons, Nat.add_comm before.length 1, ← Nat.add_assoc]
      · rw [he]
        exact ⟨[], row :: rows, rfl, by simp, .nil, .stopped hc rows⟩

/-- **Rows up to the first bad one.**  Of rows with distinct columns, those before the first bad one give
their records, in order.  Reading ends after the last row, or if there is a bad one at the first such,
with a complaint about its first cell that offends; records are counted from one. -/
theorem records_up_to_bad_row (hints : List String) {rows : List (List Cell)}
    (h : ∀ row ∈ rows, (columns row).Nodup) :
    ((records hints rows).2 = none ↔ ∀ row ∈ rows, ¬ IsBad hints row) ∧
    ∃ before after, rows = before ++ after ∧ (∀ row ∈ before, ¬ IsBad hints row) ∧
      List.Forall₂ (Gives hints) before (records hints rows).1 ∧
      Ends hints (before.length + 1) after (records hints rows).2 := by
  obtain ⟨before, after, hrows, hgood, hbefore, hends⟩ :=
    recordsFrom_up_to_bad_row hints 1 h
  rw [Nat.add_comm] at hends
  refine ⟨?_, before, after, hrows, hgood, hbefore, hends⟩
  show (recordsFrom hints 1 rows).2 = none ↔ _
  generalize (recordsFrom hints 1 rows).2 = failure at hends
  cases hends with
  | complete =>
      rw [List.append_nil] at hrows
      exact ⟨fun _ => hrows ▸ hgood, fun _ => rfl⟩
  | @stopped row e hc after =>
      refine ⟨nofun, fun hall => absurd hc.isBad (hall row ?_)⟩
      rw [hrows]
      simp

/-- Three rows, of which the second has a cell that is no number and a surplus one after it. -/
def threeRows : List (List Cell) :=
  [[⟨some "n", some " 7 "⟩, ⟨some "s", some " 7 "⟩],
    [⟨some "s", none⟩, ⟨some "n", some "0x7"⟩, ⟨none, none⟩], [⟨some "n", some "x"⟩]]

theorem records_threeRows : records ["n"] threeRows =
    ([.object [("n", .int 7), ("s", .string " 7 ")]], some (.notNumeric 2 "n" "0x7")) := by
  rfl

theorem records_up_to_bad_row_of_three : ∃ before after, threeRows = before ++ after ∧
    (∀ row ∈ before, ¬ IsBad ["n"] row) ∧
      List.Forall₂ (Gives ["n"]) before [.object [("n", .int 7), ("s", .string " 7 ")]] ∧
      Ends ["n"] (before.length + 1) after (some (.notNumeric 2 "n" "0x7")) := by
  have hcolumns : ∀ row ∈ threeRows, (columns row).Nodup := by decide
  have hrows := (records_up_to_bad_row ["n"] hcolumns).2
  rwa [records_threeRows] at hrows

end Table
end SampleSchema
