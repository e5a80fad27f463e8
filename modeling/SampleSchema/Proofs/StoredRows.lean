import SampleSchema.Proofs.Identifiers
import SampleSchema.Proofs.RunHistory

/-!
# Stored runs and the columns for them

A column for texts says how long these may be.  The texts of a stored run are the name of its format,
which is short, and the name of its root, which is the submitted one made into the name of a type.
That takes away all but letters and digits, and it puts a word in front of a digit: a name that was not
too long when it was submitted may be too long when it is stored (`Submission.Outgrows`).  No other run
is stored whose texts are too long for their columns (`Service.admits_stored_runs`).

* `StoredRun.admits_row_iff`: of a row only the name of the root may be too long for its column.
* `Service.not_admits_stored_runs`: a root name of 251 digits is accepted and does not fit.
-/

namespace SampleSchema

/-! ### Rows and columns -/

/-- Whether the texts of a row are no longer than the columns of a table allow. -/
def TableLayout.Admits (t : TableLayout) (row : List (String × Json)) : Prop :=
  ∀ c ∈ t.columns, ∀ n, c.type = .text n →
    ∃ s, row.lookup c.name = some (.string s) ∧ s.length ≤ n

namespace StoredRun

/-- The row of a stored run. -/
def row (r : StoredRun) : List (String × Json) :=
  match r.toJson with
  | .object members => members
  | _ => []

theorem length_name_le (f : Format) : f.name.length ≤ maxFormat := by
  cases f <;> decide

section
variable {r : StoredRun} {f : Format} (hf : r.format = f.name)
include hf

theorem layout_admits_iff : layout.Admits r.row ↔ r.rootTypeName.length ≤ maxRootName := by
  constructor
  · intro h
    obtain ⟨s, hs, hle⟩ := h ⟨"root_type_name", .text maxRootName, false, none⟩ (by decide) _ rfl
    obtain rfl : r.rootTypeName = s := Json.string.inj (Option.some.inj hs)
    exact hle
  · intro h c hc n hn
    simp only [layout, columns, List.mem_cons, List.not_mem_nil, or_false] at hc
    rcases hc with rfl | rfl | rfl | rfl | rfl | rfl | rfl | rfl | rfl | rfl <;> cases hn
    · exact ⟨_, rfl, hf ▸ length_name_le f⟩
    · exact ⟨_, rfl, h⟩

/-- In a table for stored runs only the name of the root may be too long for its column. -/
theorem admits_row_iff {t : TableLayout} (ht : fits t = true) :
    t.Admits r.row ↔ r.rootTypeName.length ≤ maxRootName := by
  simp only [fits, Bool.and_eq_true, List.all_eq_true, List.contains_iff_mem] at ht
  obtain ⟨⟨⟨-, hlayout⟩, htable⟩, -⟩ := ht
  rw [← layout_admits_iff hf]
  exact ⟨fun h c hc => h c (hlayout c hc), fun h c hc => h c (htable c hc)⟩

end

end StoredRun

/-! ### Submitted names -/

namespace Submission

/-- Whether the root name of a submission is too long when it is stored: a word comes in front of it,
and with the word its letters and digits are too many. -/
def Outgrows (s : Submission) : Prop :=
  ∃ name, s.rootName = some name ∧ startsWithDigit name = true ∧
    StoredRun.maxRootName < fieldWord.length + (lettersAndDigits name).length

/-- A name that is not empty is taken as it is given. -/
theorem givenOr_of_length {name : String} (h : 1 ≤ name.length) (otherwise : String) :
    givenOr (some name) otherwise = name := by
  rw [givenOr, if_neg]
  rintro rfl
  cases h

/-- The name of the root is made of the name that was asked for. -/
theorem rootTypeName_of_report {p : Reading} {settings : Settings} {s : Submission} {report : Report}
    (h : s.report p settings = .ok report) :
    report.rootTypeName = typeName (givenOr s.rootName settings.rootTypeName) := by
  obtain ⟨samples, -, h⟩ := ok_of_bind h
  obtain ⟨inferred, -, h⟩ := ok_of_bind (ok_of_mapError h)
  cases h
  rfl

/-- The name that is stored is as short as its column allows, unless the submitted one outgrows it. -/
theorem length_rootTypeName_le_iff {p : Reading} {s : Submission} {report : Report}
    (hnames : ∀ n ∈ s.rootName, 1 ≤ n.length ∧ n.length ≤ SampleSchema.maxRootName)
    (hreport : s.report p {} = .ok report) :
    report.rootTypeName.length ≤ StoredRun.maxRootName ↔ ¬ s.Outgrows := by
  rw [rootTypeName_of_report hreport]
  cases hname : s.rootName with
  | none =>
      have hroot : (typeName (givenOr none ({} : Settings).rootTypeName)).length ≤
          StoredRun.maxRootName := by decide
      refine iff_of_true hroot ?_
      rintro ⟨name, hsome, -⟩
      rw [hname] at hsome
      cases hsome
  | some name =>
      obtain ⟨hleast, hgreatest⟩ := hnames name hname
      have hkept : (lettersAndDigits name).length ≤ StoredRun.maxRootName := by
        rw [← String.length_toList] at hgreatest
        exact (List.length_filter_le _ _).trans hgreatest
      have hword : fieldWord.length ≤ StoredRun.maxRootName := by decide
      have houtgrows : s.Outgrows ↔ startsWithDigit name = true ∧
          StoredRun.maxRootName < fieldWord.length + (lettersAndDigits name).length := by
        constructor
        · rintro ⟨name', hsome, h⟩
          cases hname.symm.trans hsome
          exact h
        · exact fun h => ⟨name, hname, h⟩
      rw [givenOr_of_length hleast, houtgrows, length_typeName]
      cases hdigit : startsWithDigit name with
      | true => simp
      | false =>
          simp only [Bool.false_or, Bool.false_eq_true, false_and, not_false_eq_true, iff_true]
          split
          · rename_i hempty
            rw [List.isEmpty_iff.mp hempty]
            exact hword
          · omega

end Submission

/-! ### Stored runs -/

namespace Service

/-- **Stored runs fit into their columns unless a root name outgrows its own.**  Whatever requests reach
a database that is made for stored runs, each run that is there after them was stored for one of them;
and in any table for stored runs the columns are long enough for its row, unless the letters and digits
of the submitted root name start with a digit and are too many with the word in front of them. -/
theorem admits_stored_runs {p : Packages} (hp : p.Lawful) (rs : List Request) :
    ∃ rows, p.database.rows? (serve p p.database.created rs).2 = some rows ∧
      ∀ row ∈ rows, ∃ r ∈ rs, ∃ s report, Stores p r s report ∧ row.toRun = .of s.format report ∧
        ∀ t, StoredRun.fits t = true → (t.Admits row.row ↔ ¬ s.Outgrows) := by
  obtain ⟨xs, hxs, hhistory⟩ := history_serve hp rs hp.database.rows?_created
  refine ⟨_, hxs, fun row hrow => ?_⟩
  obtain ⟨x, hx, rfl⟩ := List.mem_map.mp hrow
  obtain hnone | ⟨r, hr, s, report, hstores, hrun⟩ :=
    hhistory.exists_stores x.1 (List.fst_mem_of_mem_zipIdx hx)
  · cases hnone
  refine ⟨r, hr, s, report, hstores, hrun, fun t ht => ?_⟩
  have hname : (x.1.stored x.2).rootTypeName = report.rootTypeName :=
    congrArg Run.rootTypeName hrun
  rw [StoredRun.admits_row_iff (congrArg Run.format hrun) ht, hname,
    Submission.length_rootTypeName_le_iff (hp.framework.infer_name hstores.call) hstores.result]

/-! ### Root names of digits -/

/-- A text of ones. -/
def ones (n : Nat) : String := String.ofList (List.replicate n '1')

theorem length_ones (n : Nat) : (ones n).length = n := by
  rw [ones, String.length_ofList, List.length_replicate]

/-- Digits are all that there is in a name of ones. -/
theorem lettersAndDigits_ones (n : Nat) : lettersAndDigits (ones n) = List.replicate n '1' := by
  rw [lettersAndDigits, ones, String.toList_ofList, List.filter_replicate_of_pos (by decide)]

theorem startsWithDigit_ones (n : Nat) : startsWithDigit (ones (n + 1)) = true := by
  rw [startsWithDigit, lettersAndDigits_ones]
  rfl

/-- A request to store the run of a truth value under a root name of ones. -/
def onesRequest (n : Nat) : Request := samplesRequest writtenFalse (some (ones n))

section
variable {n : Nat} (hn : 1 ≤ n ∧ n ≤ SampleSchema.maxRootName)
include hn

/-- A submission under a name of ones is stored. -/
theorem stores_ones : Stores .standard (onesRequest n) (samplesSubmission writtenFalse (some (ones n)))
    (falseReport (some (ones n))) := by
  refine stores_false fun name hname => ?_
  obtain rfl := Option.some.inj hname
  rwa [length_ones]

/-- The request is accepted, and its run is the only one. -/
theorem rows_onesRequest : ∃ row : StoredRun, row.toRun = .of .json (falseReport (some (ones n))) ∧
    Packages.standard.database.rows?
      (serve .standard Packages.standard.database.created [onesRequest n]).2 = some [row] := by
  obtain ⟨xs, hxs, hhistory⟩ := history_serve Packages.lawful_standard [onesRequest n]
    Packages.lawful_standard.database.rows?_created
  cases hhistory with
  | next hstep hrest =>
      obtain ⟨createdAt, hrecord, -⟩ := hstep.stored (stores_ones hn)
      cases hrest
      subst hrecord
      exact ⟨_, RunRecord.run_of _ _ createdAt, hxs⟩

theorem length_falseReport_ones : (falseReport (some (ones n))).rootTypeName.length = n + 5 := by
  obtain ⟨m, rfl⟩ : ∃ m, n = m + 1 := ⟨n - 1, by omega⟩
  have hpos : 1 ≤ (ones (m + 1)).length := by
    rw [length_ones]
    omega
  have hword : fieldWord.length = 5 := rfl
  simp only [falseReport, Submission.givenOr_of_length hpos, length_typeName, startsWithDigit_ones,
    lettersAndDigits_ones, List.length_replicate, Bool.true_or, if_true, hword]
  omega

end

/-- A root name of 250 digits fits after the word has come in front of it. -/
theorem admits_stored_runs_of_ones : ∃ row,
    Packages.standard.database.rows?
      (serve .standard Packages.standard.database.created [onesRequest 250]).2 = some [row] ∧
    row.rootTypeName.length = 255 ∧
    StoredRun.layout.Admits row.row ∧ runsLayout.Admits row.row := by
  have hbounds : 1 ≤ 250 ∧ 250 ≤ SampleSchema.maxRootName := by decide
  have hmax : StoredRun.maxRootName = 255 := rfl
  have hword : fieldWord.length = 5 := rfl
  obtain ⟨row, hrun, hrow⟩ := rows_onesRequest hbounds
  obtain ⟨rows, hrows, hadmits⟩ := admits_stored_runs Packages.lawful_standard [onesRequest 250]
  cases hrow.symm.trans hrows
  obtain ⟨r, hr, s, report, hstores, -, hadmits⟩ := hadmits row List.mem_cons_self
  obtain rfl := List.mem_singleton.mp hr
  obtain ⟨rfl, rfl⟩ := hstores.unique (stores_ones hbounds)
  have hfits : ¬ (samplesSubmission writtenFalse (some (ones 250))).Outgrows := by
    rintro ⟨name, hname, -, hlong⟩
    obtain rfl : ones 250 = name := Option.some.inj hname
    rw [lettersAndDigits_ones, List.length_replicate] at hlong
    omega
  have hlength : row.rootTypeName.length = 255 :=
    (congrArg (·.rootTypeName.length) hrun).trans (length_falseReport_ones hbounds)
  exact ⟨row, hrow, hlength, (hadmits _ fits_layout).mpr hfits, (hadmits _ fits_runsLayout).mpr hfits⟩

/-- A root name of 251 digits is accepted and its run is stored, but the name with the word is too
long for the column. -/
theorem not_admits_stored_runs : ∃ row,
    Packages.standard.framework.dispatch (onesRequest 251) =
      .infer (samplesSubmission writtenFalse (some (ones 251))) ∧
    Packages.standard.database.rows?
      (serve .standard Packages.standard.database.created [onesRequest 251]).2 = some [row] ∧
    row.rootTypeName.length = 256 ∧
    ¬ StoredRun.layout.Admits row.row ∧ ¬ runsLayout.Admits row.row := by
  have hbounds : 1 ≤ 251 ∧ 251 ≤ SampleSchema.maxRootName := by decide
  obtain ⟨row, hrun, hrow⟩ := rows_onesRequest hbounds
  have hlength : row.rootTypeName.length = 256 :=
    (congrArg (·.rootTypeName.length) hrun).trans (length_falseReport_ones hbounds)
  have hformat : row.format = Format.json.name := congrArg Run.format hrun
  have hlong : ¬ row.rootTypeName.length ≤ StoredRun.maxRootName := by
    rw [hlength]
    decide
  refine ⟨row, (stores_ones hbounds).call, hrow, hlength, ?_, ?_⟩
  · rwa [StoredRun.admits_row_iff hformat fits_layout]
  · rwa [StoredRun.admits_row_iff hformat fits_runsLayout]

end Service

end SampleSchema
