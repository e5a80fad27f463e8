import SampleSchema.Proofs.DistinctNames
import SampleSchema.Proofs.JsonLines
import SampleSchema.Proofs.ParallelRuns
import SampleSchema.Proofs.ReadArguments
import SampleSchema.Proofs.RunSteps
import SampleSchema.Proofs.StandardPackages

/-!
# The command line and the service

There are two ways to the report on a text: a file that is named on the command line, and a submission
to the service.  They come to the same end (`CommandLine.run_agrees_with_service`): either both give
the report, or both say the same of why there is none, or both fail without words.

An outcome and an answer that come from one report agree (`CommandLine.agree_submit`).
-/

namespace SampleSchema

/-! ### Outcomes and answers -/

namespace CommandLine
open Service

/-- The failure of a run where a submission fails. -/
def Failure.ofSubmission : Submission.Failure → Failure
  | .read e => .read e
  | .run e  => .run e

/-- Whether the outcome of a run and an answer of the service say the same. -/
structure Agree (outcome : Outcome) (response : Response) : Prop where
  /-- There is a report on one way exactly when there is one on the other way. -/
  accepted : outcome.status = 0 ↔ response.status = 200
  /-- Where there is one, it is the same on both ways. -/
  payload : response.status = 200 → ∃ payload : Report, response = answer payload.toJson ∧
    outcome.output = payload.toJson.text ++ "\n"
  /-- What there is to say of why there is none is said on both ways. -/
  refused : ∀ message, outcome.status = 2 ∧ outcome.complaint = "error: " ++ message ++ "\n" ↔
    (response.status = 422 ∨ response.status = 409) ∧ response.content = .reason message

/-- A printed report agrees with the answer that shows it. -/
theorem Agree.of_report (r : Report) : Agree (.report r.toJson.text) (answer r.toJson) where
  accepted := ⟨fun _ => rfl, fun _ => rfl⟩
  payload _ := ⟨r, rfl, rfl⟩
  refused message := by
    refine ⟨fun h => absurd (show (0 : UInt32) = 2 from h.1) (by decide), fun h => ?_⟩
    cases h.2

theorem complaint_refused_iff {reason message : String} :
    (Outcome.refused reason).complaint = "error: " ++ message ++ "\n" ↔ reason = message := by
  refine ⟨fun h => ?_, fun h => h ▸ rfl⟩
  have hchars := congrArg String.toList h
  simp only [Outcome.complaint, String.toList_append, List.append_assoc, List.append_cancel_left_eq,
    List.append_cancel_right_eq] at hchars
  exact String.toList_injective hchars

/-- A refusal agrees with the answer that gives the same reason. -/
theorem Agree.of_refused {status : Nat} (hstatus : status = 422 ∨ status = 409) (reason : String) :
    Agree (.refused reason) ⟨status, .reason reason⟩ where
  accepted := by
    refine ⟨fun h => absurd (show (2 : UInt32) = 0 from h) (by decide), fun h => ?_⟩
    rcases hstatus with rfl | rfl <;> cases h
  payload h := by rcases hstatus with rfl | rfl <;> cases h
  refused message := by
    rw [complaint_refused_iff]
    refine ⟨fun h => ⟨hstatus, congrArg _ h.2⟩, fun h => ⟨rfl, ?_⟩⟩
    cases h.2
    rfl

/-- Any failure agrees with an answer that failed. -/
theorem Agree.of_failed (e : Failure) : Agree (.failed e) failed where
  accepted := ⟨fun h => absurd (show (1 : UInt32) = 0 from h) (by decide), nofun⟩
  payload := nofun
  refused message := by
    refine ⟨fun h => absurd (show (1 : UInt32) = 2 from h.1) (by decide), fun h => ?_⟩
    cases h.2

/-- An outcome and an answer that come from one report, or from one failure to make it, agree. -/
theorem agree_submit {p : Packages} (hp : p.Lawful) {s : Submission} (hs : s.persist = false)
    (db : p.database.State) :
    Agree (.of p ((s.report p.reading {}).mapError .ofSubmission)) (submit p db s).1 := by
  cases hreport : s.report p.reading {} with
  | ok r =>
      rw [submit_of_not_persist hreport hs, Except.mapError, Outcome.of, hp.writer.prints_eq, reported]
      cases p.writer.writes r with
      | true => exact .of_report r
      | false => exact .of_failed _
  | error e =>
      rw [submit_of_error hreport]
      rcases e with (e | - | - | e) | (e | n | c)
      · exact .of_refused (.inl rfl) e.message
      · exact .of_failed _
      · exact .of_failed _
      · exact .of_failed _
      · exact .of_failed _
      · exact .of_failed _
      · exact .of_refused (.inr rfl) c.message

/-! ### Files -/

/-- A file without carriage returns is read back as it was written. -/
theorem textOf_toUTF8 {text : String} (h : '\r' ∉ text.toList) : textOf text.toUTF8 = .ok text := by
  have hdecoded : String.fromUTF8? text.toUTF8 = some text := by
    unfold String.fromUTF8?
    rw [String.toUTF8_eq_toByteArray, dif_pos text.isValidUTF8]
    rfl
  rw [textOf, hdecoded]
  simp only [Text.withLineFeeds_of_notMem h, String.ofList_toList]

section
variable {p : Packages} {bytesAt : SamplePath → Except FileError ByteArray} {a : Arguments}

/-- The samples of a file are those of its text. -/
theorem samplesAt_eq {path : SamplePath} {f : Format} {text : String}
    (hf : (a.format <|> path.format?) = some f) (hbytes : bytesAt path = .ok text.toUTF8)
    (htext : '\r' ∉ text.toList) :
    samplesAt p bytesAt a path = (f.read p.reading a.numericColumns text).mapError .read := by
  simp only [samplesAt, hf, hbytes, Except.bind, textOf_toUTF8 htext]
  rfl

/-- The report on files is that on their samples in the order of the arguments. -/
theorem report_eq_bind : report p bytesAt a =
    (a.paths.mapM (samplesAt p bytesAt a)).map List.flatten >>= fun samples =>
      (({} : Settings).report a.rootName (if a.parallel then some true else none) samples).mapError
        .run := by
  rw [report]
  cases a.paths.mapM (samplesAt p bytesAt a) <;> rfl

/-- The report on files is that on a submission with their samples. -/
theorem report_eq_submission {s : Submission} (hparallel : a.parallel = false)
    (hroot : a.rootName = s.rootName)
    (hsamples : (a.paths.mapM (samplesAt p bytesAt a)).map List.flatten =
      (s.sampleList p.reading).mapError .read) :
    report p bytesAt a = (s.report p.reading {}).mapError .ofSubmission := by
  rw [report_eq_bind, hsamples, hparallel, hroot, Submission.report]
  cases s.sampleList p.reading with
  | error e => rfl
  | ok samples =>
      change (Settings.report {} s.rootName none samples).mapError _ =
        ((Settings.report {} s.rootName none samples).mapError _).mapError _
      cases Settings.report {} s.rootName none samples <;> rfl

/-- The samples of several files are read file by file. -/
theorem mapM_samplesAt {paths : List SamplePath} {groups : List (List Sample)}
    (h : List.Forall₂ (fun path samples => samplesAt p bytesAt a path = .ok samples) paths groups) :
    paths.mapM (samplesAt p bytesAt a) = .ok groups := by
  induction h with
  | nil => rfl
  | cons hpath _ ih =>
      rw [List.mapM_cons, hpath, ih]
      rfl

theorem mapM_singleton (path : SamplePath) :
    ([path].mapM (samplesAt p bytesAt a)).map List.flatten = samplesAt p bytesAt a path := by
  rw [List.mapM_cons, List.mapM_nil]
  cases samplesAt p bytesAt a path with
  | error e => rfl
  | ok samples => exact congrArg Except.ok (List.append_nil samples)

theorem hasDistinctNames_of_samplesAt {path : SamplePath} {samples : List Sample}
    (h : samplesAt p bytesAt a path = .ok samples) : ∀ v ∈ samples, v.hasDistinctNames = true := by
  rw [samplesAt] at h
  split at h
  · obtain ⟨f, -, h⟩ := ok_of_bind h
    obtain ⟨text, -, h⟩ := ok_of_bind h
    exact Format.hasDistinctNames_of_read (ok_of_mapError h)
  · cases h

theorem hasDistinctNames_of_mapM {groups : List (List Sample)}
    (h : a.paths.mapM (samplesAt p bytesAt a) = .ok groups) :
    ∀ v ∈ groups.flatten, v.hasDistinctNames = true := by
  intro v hv
  obtain ⟨samples, hsamples, hv⟩ := List.mem_flatten.mp hv
  obtain ⟨path, -, hpath⟩ := ok_of_mapM h samples hsamples
  exact hasDistinctNames_of_samplesAt hpath v hv

end

theorem run_of_read (p : Packages) {arguments : List String} {a : Arguments}
    (h : Arguments.read arguments = .ok a) (bytesAt : SamplePath → Except FileError ByteArray) :
    run p bytesAt arguments = .of p (report p bytesAt a) := by
  rw [run, h]

/-! ### Parallel runs -/

/-- Whether two outcomes are reports that tell the same types and conflicts at the same paths, or are
the same. -/
inductive SameFindings : Outcome → Outcome → Prop where
  | reports {q r : Report} (h : q.SameTypes r) :
      SameFindings (.report q.toJson.text) (.report r.toJson.text)
  | same (outcome : Outcome) : SameFindings outcome outcome

section
variable {p : Packages} (hp : p.Lawful)
include hp

/-- Reports that tell the same types are both printed or neither of them is. -/
theorem sameFindings_of_sameTypes {q r : Report} (h : q.SameTypes r) :
    SameFindings (.of p (.ok q)) (.of p (.ok r)) := by
  have hprints : p.writer.prints q = p.writer.prints r := by
    have hr : { q with conflicts := r.conflicts } = r := by
      obtain ⟨hrunId, hrootTypeName, hsampleCount, hroot, hdefinitions, -⟩ := h
      rw [hrunId, hrootTypeName, hsampleCount, hroot, hdefinitions]
    rw [hp.writer.prints_eq, hp.writer.prints_eq, ← hp.writer.writes_conflicts q r.conflicts, hr]
  rw [Outcome.of, Outcome.of, hprints]
  split
  · exact .reports h
  · exact .same _

theorem sameFindings_of_parallel (bytesAt : SamplePath → Except FileError ByteArray)
    (a : Arguments) :
    SameFindings (.of p (report p bytesAt a)) (.of p (report p bytesAt { a with parallel := true })) := by
  have hparallel : report p bytesAt { a with parallel := true } =
      (a.paths.mapM (samplesAt p bytesAt a)).map List.flatten >>= fun samples =>
        (({} : Settings).report a.rootName (some true) samples).mapError .run := report_eq_bind
  rw [report_eq_bind, hparallel]
  cases hgroups : a.paths.mapM (samplesAt p bytesAt a) with
  | error e => exact .same _
  | ok groups =>
      have hdistinct := hasDistinctNames_of_mapM hgroups
      simp only [Except.map, bind, Except.bind]
      obtain ⟨q, r, hq, hr, hsame⟩ | hsame := ({} : Settings).sameTypes_report hdistinct a.rootName
        (if a.parallel then some true else none) (some true)
      · rw [hq, hr]
        exact sameFindings_of_sameTypes hp hsame
      · rw [hsame]
        exact .same _

end

/-- **The command line and the service agree.**  Arguments that name one file come to the same end as a
request that submits its text in the same format, with the same columns and root name, and does not
store the run.  Arguments that name several files come to the end that their samples come to in the
order of the arguments, and so does a request that submits these samples.  If the run is parallel
instead, the types stay the same, and so do the paths of the conflicts.  For whatever can be asked for
there are a request and arguments that ask for it, and one more argument asks for a parallel run. -/
theorem run_agrees_with_service {p : Packages} (hp : p.Lawful) :
    (∀ (bytesAt : SamplePath → Except FileError ByteArray) (arguments : List String) (a : Arguments)
      (path : SamplePath) (f : Format) (text : String) (r : Request) (db : p.database.State),
      Arguments.read arguments = .ok a → a.paths = [path] → a.parallel = false →
      (a.format <|> path.format?) = some f → bytesAt path = .ok text.toUTF8 → '\r' ∉ text.toList →
      p.framework.dispatch r = .infer ⟨f, .content text, a.numericColumns, a.rootName, false⟩ →
      Agree (run p bytesAt arguments) (handle p db r).1) ∧
    (∀ (bytesAt : SamplePath → Except FileError ByteArray) (arguments : List String) (a : Arguments)
      (groups : List (List Sample)), Arguments.read arguments = .ok a →
      List.Forall₂ (fun path samples => samplesAt p bytesAt a path = .ok samples) a.paths groups →
      run p bytesAt arguments = .of p ((({} : Settings).report a.rootName
        (if a.parallel then some true else none) groups.flatten).mapError .run) ∧
      ∀ (r : Request) (s : Submission) (db : p.database.State), p.framework.dispatch r = .infer s →
        s.persist = false → a.parallel = false → a.rootName = s.rootName →
        s.sampleList p.reading = .ok groups.flatten →
        Agree (run p bytesAt arguments) (handle p db r).1) ∧
    (∀ (bytesAt : SamplePath → Except FileError ByteArray) (arguments arguments' : List String)
      (a : Arguments), Arguments.read arguments = .ok a →
      Arguments.read arguments' = .ok { a with parallel := true } →
      SameFindings (run p bytesAt arguments) (run p bytesAt arguments')) ∧
    (∀ (f : Format) (text : String) (columns : List String) (rootName : Option String),
      (∀ n ∈ rootName, 1 ≤ n.length ∧ n.length ≤ maxRootName) →
      p.framework.dispatch (statement f text columns rootName false) =
        .infer ⟨f, .content text, columns, rootName, false⟩) ∧
    (∀ (format : Option Format) (rootName : Option String) (columns paths : List String),
      paths ≠ [] → Arguments.read (Arguments.spelled format rootName columns paths) =
        .ok { paths := paths.map SamplePath.ofText, format := format, rootName := rootName,
              numericColumns := columns }) ∧
    ∀ arguments, Arguments.read (Switch.parallel.name :: arguments) =
      (Arguments.read arguments).map fun a => { a with parallel := true } := by
  refine ⟨?_, ?_, ?_, fun f text columns rootName hname => ?_,
    fun _ _ _ _ => Arguments.read_spelled _ _ _, Arguments.read_cons_parallel⟩
  · intro bytesAt arguments a path f text r db hread hpaths hparallel hf hbytes htext hcall
    have hsamples : (a.paths.mapM (samplesAt p bytesAt a)).map List.flatten =
        (f.read p.reading a.numericColumns text).mapError .read := by
      rw [hpaths, mapM_singleton, samplesAt_eq hf hbytes htext]
    have hreport := report_eq_submission
      (s := ⟨f, .content text, a.numericColumns, a.rootName, false⟩) hparallel rfl hsamples
    rw [run_of_read p hread, hreport, handle_of_infer hcall]
    exact agree_submit hp rfl db
  · intro bytesAt arguments a groups hread hgroups
    have hmapM := mapM_samplesAt hgroups
    refine ⟨?_, fun r s db hcall hpersist hparallel hroot hsamples => ?_⟩
    · rw [run_of_read p hread, report_eq_bind, hmapM]
      rfl
    · have hsame : (a.paths.mapM (samplesAt p bytesAt a)).map List.flatten =
          (s.sampleList p.reading).mapError .read := by
        rw [hmapM, hsamples]
        rfl
      rw [run_of_read p hread, report_eq_submission hparallel hroot hsame, handle_of_infer hcall]
      exact agree_submit hp hpersist db
  · intro bytesAt arguments arguments' a hread hread'
    rw [run_of_read p hread, run_of_read p hread']
    exact sameFindings_of_parallel hp bytesAt a
  · exact hp.framework.statement f text columns rootName false hname

/-- A table with prices. -/
def priceTable : String := "name,price\na,2\nb,\n"

/-- What some files hold. -/
def exampleFiles (path : SamplePath) : Except FileError ByteArray :=
  if path = SamplePath.ofText "prices.csv" then .ok priceTable.toUTF8
  else if path = SamplePath.ofText "none.json" then .ok "[]".toUTF8
  else .ok "\"a\"".toUTF8

/-- The files without prices as lines. -/
theorem read_exampleLines :
    Format.jsonLines.read .standard [] "[]\n\"a\"" = .ok [.array [], .string "a"] := by
  have hlines : Text.lines "[]\n\"a\"" = ["[]", "\"a\""] := by decide +kernel
  have hnone := Format.readJson_noItems (.line 1)
  have htext : Format.readJson .standard (.line 2) "\"a\"" = .ok (.string "a") :=
    Format.readJson_quoted _ "a"
  have hblank : Text.isBlankText "[]" = false ∧ Text.isBlankText "\"a\"" = false := by
    decide +kernel
  rw [Format.read, hlines, Format.readLines, hblank.1, if_neg Bool.false_ne_true, hnone]
  simp only [Format.readLines, hblank.2, Bool.false_eq_true, if_false, htext]
  rfl

/-- One file and the request that submits its text, two files and a request that submits their samples,
and the two files in a parallel run. -/
theorem run_agrees_with_service_on_files :
    Agree (run .standard exampleFiles (Arguments.spelled none (some "item") ["price"] ["prices.csv"]))
        (handle .standard Packages.standard.database.created
          (statement .table priceTable ["price"] (some "item") false)).1 ∧
      Agree (run .standard exampleFiles (Arguments.spelled none none [] ["none.json", "text.json"]))
        (handle .standard Packages.standard.database.created
          (statement .jsonLines "[]\n\"a\"" [] none false)).1 ∧
      SameFindings
        (run .standard exampleFiles (Arguments.spelled none none [] ["none.json", "text.json"]))
        (run .standard exampleFiles
          ("--parallel" :: Arguments.spelled none none [] ["none.json", "text.json"])) := by
  obtain ⟨hone, hmany, hparallel, hstatement, -⟩ := run_agrees_with_service Packages.lawful_standard
  have hread := Arguments.read_spelled none none [] (show ["none.json", "text.json"] ≠ [] by simp)
  refine ⟨?_, ?_, ?_⟩
  · have hformat : (SamplePath.ofText "prices.csv").format? = some .table := by decide +kernel
    have hreturn : '\r' ∉ priceTable.toList := by simp [priceTable]
    refine hone exampleFiles _ _ _ .table priceTable _ _
      (Arguments.read_spelled none (some "item") ["price"] (by simp)) rfl rfl hformat (if_pos rfl)
      hreturn (hstatement _ _ _ _ ?_)
    rintro n ⟨⟩
    decide
  · have hfiles : List.Forall₂ (fun path samples => samplesAt .standard exampleFiles
        { paths := ["none.json", "text.json"].map SamplePath.ofText } path = .ok samples)
        (["none.json", "text.json"].map SamplePath.ofText) [[.array []], [.string "a"]] := by
      have hnone : exampleFiles (SamplePath.ofText "none.json") = .ok "[]".toUTF8 := by
        rw [exampleFiles, if_neg (by decide +kernel), if_pos rfl]
      have htext : exampleFiles (SamplePath.ofText "text.json") = .ok "\"a\"".toUTF8 := by
        rw [exampleFiles, if_neg (by decide +kernel), if_neg (by decide +kernel)]
      refine .cons ?_ (.cons ?_ .nil)
      · rw [samplesAt_eq (f := .json) (by decide +kernel) hnone (by decide +kernel)]
        exact congrArg _ (Format.read_json (Format.readJson_noItems .document))
      · rw [samplesAt_eq (f := .json) (by decide +kernel) htext (by decide +kernel)]
        exact congrArg _ (Format.read_json (Format.readJson_quoted .document "a"))
    have hcall := hstatement .jsonLines "[]\n\"a\"" [] none
      fun n hn => absurd hn (Option.not_mem_none n)
    have hsamples : Submission.sampleList Packages.standard.reading
        ⟨.jsonLines, .content "[]\n\"a\"", [], none, false⟩ =
          .ok [[.array []], [.string "a"]].flatten := read_exampleLines
    exact (hmany exampleFiles _ _ _ hread hfiles).2 _ _ _ hcall rfl rfl rfl hsamples
  · have hread' : Arguments.read ("--parallel" :: Arguments.spelled none none []
        ["none.json", "text.json"]) =
          .ok { paths := ["none.json", "text.json"].map SamplePath.ofText, parallel := true } := by
      have hcons := Arguments.read_cons_parallel (Arguments.spelled none none []
        ["none.json", "text.json"])
      rwa [hread] at hcons
    exact hparallel exampleFiles _ _ _ hread hread'

end CommandLine

end SampleSchema
