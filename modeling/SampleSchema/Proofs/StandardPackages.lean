import SampleSchema.Proofs.StandardFramework
import SampleSchema.Standard

/-!
# The lawfulness of the packages

The packages that the program runs with do what it relies on (`Packages.lawful_standard`): tables in
memory are a lawful database, the limits of a writer agree with each other, and a revision leads a
database in the direction of the command or nowhere.
-/

namespace SampleSchema

/-- What can be written into an answer can be stored and printed. -/
theorem Service.Writer.lawful_standard : Service.Writer.standard.Lawful where
  dumps_of_writes {r} h := by
    have hfits : decide (r.root.levels < maxLevels) = true ∧ fieldsFit r = true :=
      Bool.and_eq_true_iff.mp h
    have hle : r.root.levels ≤ maxLevels := Nat.le_of_lt (of_decide_eq_true hfits.1)
    exact Bool.and_eq_true_iff.mpr ⟨decide_eq_true hle, hfits.2⟩
  prints_eq _ := rfl
  writes_number _ _ := rfl
  writes_conflicts _ _ := rfl

/-- Tables in memory are a lawful database. -/
theorem Database.lawful_standard : Database.standard.Lawful where
  tables_blank := rfl
  tables_change _ _ := Option.map_id_apply
  insert_row {tables rows} h run := by
    have hrows : rowsOf? tables = some rows := h
    refine ⟨withRow tables ⟨run, nextNumber rows, standingTime⟩, standingTime, ?_, rfl⟩
    simp only [standard, hrows, Option.map_some]
  insert_none {tables} h run := by
    have hrows : rowsOf? tables = none := h
    simp only [standard, hrows, Option.map_none]
  count_rows _ := rfl
  find_row _ _ hlimit := if_pos hlimit
  find_none _ _ hlimit := if_neg (Nat.not_lt.mpr hlimit)
  page_rows _ _ _ _ hoffset := if_pos hoffset
  page_none _ _ _ hoffset := if_neg (Nat.not_lt.mpr hoffset)

/-- A revision leads a database in the direction of the command or nowhere. -/
theorem Versioning.lawful_standard : Versioning.standard.Lawful where
  target_cases {current direction revision version} h := by
    have htarget : Standard.target current direction revision = .ok version := h
    unfold Standard.target at htarget
    split at htarget
    · cases htarget
    · obtain ⟨effective, -, h⟩ := ok_of_bind htarget
      cases h
      cases effective
      · exact .inl rfl
      · exact .inr rfl
  head current := by
    have hcolon : ¬ "head".contains ':' = true := by simp
    refine (if_neg hcolon).trans ?_
    cases current <;> rfl
  base current := by
    have hcolon : ¬ "base".contains ':' = true := by simp
    refine (if_neg hcolon).trans ?_
    cases current <;> rfl

/-- The packages that the program runs with do what it relies on. -/
theorem Packages.lawful_standard : Packages.standard.Lawful where
  framework  := Service.Framework.lawful_standard
  writer     := Service.Writer.lawful_standard
  database   := Database.lawful_standard
  versioning := Versioning.lawful_standard

end SampleSchema
