import SampleSchema.Proofs.NestedSamples
import SampleSchema.Proofs.RunSteps
import SampleSchema.Proofs.StandardPackages

/-!
# Requests that submit samples

What a request with samples in its body submits to the service with the packages that it runs with
(`Service.dispatch_samplesRequest`), and what becomes of samples with many levels:

* 254 empty arrays in each other have a report that is stored and cannot be written into an answer
  (`Service.stores_deepArrays`);
* a hundred and one arrays in each other, with a truth value in each, have a report that is stored and
  answered, but the stored run cannot be shown (`Service.stores_deepPairs`).
-/

namespace SampleSchema.Service

section
variable (ws : List (List Char × Datum)) (rootName : Option String)
open JsonText

/-- The members of a body with samples and perhaps a root name. -/
def samplesMembers : List (String × List Char × Datum) :=
  ("samples", arrayText (ws.map Prod.fst), .list (ws.map Prod.snd)) ::
    rootName.toList.map fun n => ("root_type_name", quoted n, .string n)

/-- A request to store the run of samples. -/
def samplesRequest : Request where
  method  := "POST"
  address := "/schema/infer"
  body    := some (String.ofList (extendedText (samplesMembers ws rootName)))

/-- What the request submits. -/
def samplesSubmission : Submission where
  format   := .json
  source   := .samples (ws.map Prod.snd)
  hints    := []
  rootName := rootName
  persist  := true

variable {ws rootName}

/-- Samples within the levels of a body are taken for their submission. -/
theorem dispatch_samplesRequest {n : Nat} (h : ∀ w ∈ ws, Written n w.1 w.2)
    (hlevels : n + 2 ≤ maxBodyLevels) (hname : ∀ n ∈ rootName, 1 ≤ n.length ∧ n.length ≤ maxRootName) :
    Packages.standard.framework.dispatch (samplesRequest ws rootName) =
      .infer (samplesSubmission ws rootName) := by
  have hroute : Route.ofPath? (Address.path "/schema/infer") = some .infer := by decide +kernel
  have hwritten : ∀ m ∈ samplesMembers ws rootName, Written (n + 1) m.2.1 m.2.2 := by
    intro m hm
    simp only [samplesMembers, List.mem_cons, List.mem_map] at hm
    obtain rfl | ⟨name, -, rfl⟩ := hm
    · exact written_array h
    · exact (written_quoted _).mono (Nat.zero_le _)
  have hread : Submission.read (.map (extended [] (samplesMembers ws rootName))) =
      .ok (samplesSubmission ws rootName) := by
    have hnil : ∀ other, Submission.member? [] other = none := fun _ => rfl
    have hroot := Submission.readRootName_string hname
    cases rootName with
    | none =>
        simp [Submission.read, extended, samplesMembers, Submission.member?_insert, hnil,
          Submission.readFormat, Submission.readContent, Submission.readSamples, Submission.readHints,
          Submission.readRootName, Submission.readPersist, samplesSubmission]
    | some name =>
        have hroot : Submission.readRootName (some (.string name)) = .ok (some name) := hroot
        simp [Submission.read, extended, samplesMembers, Submission.member?_insert, hnil, hroot,
          Submission.readFormat, Submission.readContent, Submission.readSamples, Submission.readHints,
          Submission.readPersist, samplesSubmission]
  have hdispatch : Packages.standard.framework.dispatch = standardDispatch :=
    Framework.dispatch_standard
  rw [hdispatch, standardDispatch, samplesRequest, hroute]
  refine (if_pos rfl).trans ?_
  rw [call, Option.getD_some]
  exact readBody_of_members hwritten hlevels hread

end

/-! ### One sample -/

/-- A truth value, and the text that writes it. -/
def writtenFalse : List (List Char × Datum) := [(JsonText.boolText false, .bool false)]

theorem written_writtenFalse : ∀ w ∈ writtenFalse, JsonText.Written 0 w.1 w.2 :=
  List.forall_mem_singleton.mpr (JsonText.written_boolText false)

/-- The report on a truth value. -/
def falseReport (rootName : Option String) : Report :=
  ⟨none, typeName (givenOr rootName "Root"), 1, Schema.bool.descriptor, [], []⟩

/-- A truth value is stored under any root name that is neither empty nor too long. -/
theorem stores_false {rootName : Option String}
    (hname : ∀ n ∈ rootName, 1 ≤ n.length ∧ n.length ≤ maxRootName) :
    Stores .standard (samplesRequest writtenFalse rootName) (samplesSubmission writtenFalse rootName)
      (falseReport rootName) :=
  ⟨dispatch_samplesRequest written_writtenFalse (by decide) hname, rfl, rfl, rfl⟩

theorem writes_falseReport (rootName : Option String) :
    Packages.standard.writer.writes (falseReport rootName) = true := rfl

theorem shows_falseReport (rootName : Option String) :
    Packages.standard.writer.shows (.of .json (falseReport rootName)) = true := rfl

/-! ### Samples of many levels -/

section
variable {ws : List (List Char × Datum)} (h : ∀ w ∈ ws, JsonText.Written 0 w.1 w.2)
  {vs : List Sample} (hvs : (ws.map Prod.snd).mapM Datum.decode = .ok vs)
  (hleaves : Datum.nestings (ws.map Prod.snd) = 0)

variable (ws) in
/-- A request to store the run of one sample that is arrays in each other. -/
def nestedRequest (depth : Nat) : Request :=
  samplesRequest [(layeredText (ws.map Prod.fst) depth, layeredDatum (ws.map Prod.snd) depth)] none

variable (ws) in
/-- What the request submits. -/
def nestedSubmission (depth : Nat) : Submission :=
  samplesSubmission [(layeredText (ws.map Prod.fst) depth, layeredDatum (ws.map Prod.snd) depth)] none

include h hvs hleaves

/-- Such a sample is stored as long as its schema does not have too many levels. -/
theorem exists_stores_nested {depth : Nat} (hdepth : depth + 1 ≤ Reading.standard.valueLevels)
    (hobjects : (({} : Options).infer (layeredSample vs depth)).objects = [])
    (hlevels : (({} : Options).infer (layeredSample vs depth)).descriptor.levels ≤ maxLevels) :
    ∃ conflicts, Stores .standard (nestedRequest ws depth) (nestedSubmission ws depth)
      ⟨none, "Root", 1, (({} : Options).infer (layeredSample vs depth)).descriptor, [], conflicts⟩ := by
  have hdecode : (layeredDatum (ws.map Prod.snd) depth).decodeWithin Reading.standard.valueLevels =
      .ok (layeredSample vs depth) := by
    rw [Datum.decodeWithin_eq_decode, decode_layeredDatum hvs]
    rwa [nesting_layeredDatum hleaves]
  have hsamples : (nestedSubmission ws depth).sampleList Reading.standard =
      .ok [layeredSample vs depth] := by
    simp only [Submission.sampleList, nestedSubmission, samplesSubmission, List.map_cons, List.map_nil,
      List.mapM_cons, hdecode, List.mapM_nil]
    rfl
  obtain ⟨conflicts, hreport⟩ := Submission.exists_report hsamples rfl hobjects
  have hwritten : ∀ w ∈ [(layeredText (ws.map Prod.fst) depth, layeredDatum (ws.map Prod.snd) depth)],
      JsonText.Written (depth + 1) w.1 w.2 :=
    List.forall_mem_singleton.mpr (written_layeredText h depth)
  have hbody : depth + 1 + 2 ≤ maxBodyLevels := by
    have hvalue : Reading.standard.valueLevels + 2 ≤ maxBodyLevels := by decide
    omega
  refine ⟨conflicts, ?_, rfl, hreport, ?_⟩
  · exact dispatch_samplesRequest hwritten hbody (fun n hn => absurd hn (Option.not_mem_none n))
  · exact Bool.and_eq_true_iff.mpr ⟨decide_eq_true hlevels, rfl⟩

end

/-- Arrays in each other, with a truth value in each, are stored up to a number of levels. -/
theorem exists_stores_pairs {depth : Nat} (hdepth : 2 * depth + 2 ≤ maxLevels) : ∃ conflicts,
    Stores .standard (nestedRequest writtenFalse depth) (nestedSubmission writtenFalse depth)
      ⟨none, "Root", 1, (pairsSchema depth).descriptor, [], conflicts⟩ := by
  have hinfer := infer_pairs {} depth
  have hvalues : depth + 1 ≤ Reading.standard.valueLevels := by
    have hlevels : maxLevels ≤ Reading.standard.valueLevels := by decide
    omega
  rw [← hinfer]
  have hdecode : (writtenFalse.map Prod.snd).mapM Datum.decode = .ok [.bool false] := rfl
  refine exists_stores_nested written_writtenFalse hdecode rfl hvalues ?_ ?_
  · rw [hinfer, objects_pairsSchema]
  · rwa [hinfer, levels_pairs]

/-- A report is written if its root and all else in it have few enough levels. -/
theorem writes_standard (r : Report) : Packages.standard.writer.writes r =
    (decide (r.root.levels < maxLevels) && fieldsFit r) := rfl

theorem shows_standard (r : Run) : Packages.standard.writer.shows r =
    (decide (r.root.levels ≤ maxLevels) && r.definitions.all (·.levels ≤ maxLevels) &&
      r.conflicts.all (·.levels ≤ maxLevels)) := rfl

/-- A request to store the run of 101 arrays in each other, where each has a truth value before the
array in it. -/
def deepPairs : Request := nestedRequest writtenFalse 100

/-- The report is stored and can be written into an answer, but the stored run cannot be shown. -/
theorem stores_deepPairs : ∃ s report, Stores .standard deepPairs s report ∧
    Packages.standard.writer.writes report = true ∧
    Packages.standard.writer.shows (.of s.format report) = false := by
  obtain ⟨conflicts, hstores⟩ := exists_stores_pairs (show 2 * 100 + 2 ≤ maxLevels by decide)
  have hlevels : (pairsSchema 100).descriptor.levels < maxLevels := by
    rw [levels_pairs]
    decide
  have hshown : ¬ (pairsSchema 100).descriptor.toJson.levels ≤ maxLevels := by
    rw [levels_toJson_pairs]
    decide
  refine ⟨_, _, hstores, ?_, ?_⟩
  · rw [writes_standard, decide_eq_true hlevels]
    rfl
  · rw [shows_standard, Run.of, decide_eq_false hshown, Bool.false_and, Bool.false_and]

end SampleSchema.Service
