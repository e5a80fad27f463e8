import SampleSchema.Proofs.Addresses
import SampleSchema.Proofs.JsonTexts
import SampleSchema.Standard.Framework

/-!
# The lawfulness of the framework

The framework that the program runs with keeps the bounds of the parameters, refuses with a status
that stands for a broken rule, and reads requests in their plainest form
(`Service.Framework.lawful_standard`).

* A submission that is read has a root name within its bounds (`Submission.length_of_read`).
-/

namespace SampleSchema

/-! ### Submissions -/

namespace Submission

/-- A member that is put under a name is found under it, and the others as before. -/
theorem member?_insert (d : Datum) (name other : String) : ∀ entries : List (Datum × Datum),
    member? (Datum.insert (.string name) d entries) other =
      if name = other then some d else member? entries other
  | [] => by
      by_cases h : name = other
      · simp [Datum.insert, member?, h]
      · simp [Datum.insert, member?, h]
  | (k, v) :: entries => by
      have ih := member?_insert d name other entries
      unfold member? at ih ⊢
      rw [Datum.insert]
      by_cases hk : Datum.sameKey k (.string name) = true
      · obtain rfl := Datum.sameKey_string_iff.mp hk
        rw [if_pos hk, List.findSome?_cons, List.findSome?_cons]
        by_cases h : name = other
        · simp [h]
        · simp [h]
      · rw [if_neg hk, List.findSome?_cons, List.findSome?_cons, ih]
        by_cases h : name = other
        · subst h
          cases k with
          | string s =>
              have hne : s ≠ name := fun he => hk (Datum.sameKey_string_iff.mpr (congrArg _ he))
              simp [hne]
          | _ => simp
        · simp [h]

/-- Names of columns are read from a list of texts. -/
theorem readNames_strings : ∀ (names : List String) (index : Nat),
    readNames index (names.map .string) = .ok names
  | [], _              => rfl
  | name :: names, index => by rw [List.map_cons, readNames, readNames_strings names]

/-- A name within the bounds is read. -/
theorem readRootName_string {rootName : Option String}
    (h : ∀ n ∈ rootName, 1 ≤ n.length ∧ n.length ≤ maxRootName) :
    readRootName (rootName.map .string) = .ok rootName := by
  cases rootName with
  | none => rfl
  | some n =>
      obtain ⟨hleast, hgreatest⟩ := h n rfl
      rw [Option.map_some, readRootName, if_neg (by omega), if_neg (by omega)]

theorem length_of_readRootName {d : Option Datum} {name : String}
    (h : readRootName d = .ok (some name)) : 1 ≤ name.length ∧ name.length ≤ maxRootName := by
  unfold readRootName at h
  split at h
  · cases h
  · cases h
  · split at h
    · cases h
    · split at h
      · cases h
      · cases h
        omega
  · cases h

/-- A submitted root name is not empty and not too long. -/
theorem length_of_read {d : Datum} {s : Submission} (h : read d = .ok s) :
    ∀ n ∈ s.rootName, 1 ≤ n.length ∧ n.length ≤ maxRootName := by
  intro n hn
  unfold read at h
  split at h
  · dsimp only at h
    split at h
    · rename_i hrootName _
      split at h
      · cases h
        exact length_of_readRootName (hrootName.trans (congrArg _ hn))
      · cases h
        exact length_of_readRootName (hrootName.trans (congrArg _ hn))
      · cases h
    · cases h
  · cases h

/-! ### Bodies that state a text -/

section
variable (f : Format) (text : String) (columns : List String) (rootName : Option String)
  (persist : Bool)
open JsonText

/-- The members of a body that submits a text, with the characters that write them. -/
def stated : List (String × List Char × Datum) :=
  ("format", quoted f.name, .string f.name) :: ("content", quoted text, .string text) ::
    ("numeric_columns", arrayText (columns.map quoted), .list (columns.map .string)) ::
    ("persist", boolText persist, .bool persist) ::
    rootName.toList.map fun n => ("root_type_name", quoted n, .string n)

/-- The members of a statement are written with one level of brackets at most. -/
theorem written_stated : ∀ m ∈ stated f text columns rootName persist, Written 1 m.2.1 m.2.2 := by
  have hcolumns : Written 1 (arrayText (columns.map quoted)) (.list (columns.map .string)) := by
    have hquoted : ∀ w ∈ columns.map fun c => (quoted c, Datum.string c), Written 0 w.1 w.2 := by
      intro w hw
      obtain ⟨c, -, rfl⟩ := List.mem_map.mp hw
      exact written_quoted c
    have harray := written_array hquoted
    rwa [List.map_map, List.map_map] at harray
  intro m hm
  simp only [stated, List.mem_cons, List.mem_map] at hm
  obtain rfl | rfl | rfl | rfl | ⟨n, -, rfl⟩ := hm
  · exact (written_quoted _).mono (Nat.zero_le 1)
  · exact (written_quoted _).mono (Nat.zero_le 1)
  · exact hcolumns
  · exact (written_boolText _).mono (Nat.zero_le 1)
  · exact (written_quoted _).mono (Nat.zero_le 1)

/-- The body of a statement is the text of its members. -/
theorem objectText_statementMembers :
    objectText (Service.statementMembers f text columns rootName persist) =
      extendedText (stated f text columns rootName persist) := by
  simp only [Service.statementMembers, extendedText, stated, List.map_cons, List.map_map]
  rfl

variable {rootName} (hname : ∀ n ∈ rootName, 1 ≤ n.length ∧ n.length ≤ maxRootName)
include hname

/-- The members of a body that submits a text are read to this submission. -/
theorem read_stated : read (.map (extended [] (stated f text columns rootName persist))) =
    .ok ⟨f, .content text, columns, rootName, persist⟩ := by
  have hformat : readFormat (some (.string f.name)) = .ok f := by
    simp only [readFormat, Format.ofName?_name]
  have hroot := readRootName_string hname
  have hnil : ∀ name, member? [] name = none := fun _ => rfl
  cases rootName with
  | none =>
      simp [read, extended, stated, member?_insert, hnil, hformat, readContent, readSamples, readHints,
        readNames_strings, readPersist, boolOf, Except.mapError, readRootName]
  | some n =>
      have hroot : readRootName (some (.string n)) = .ok (some n) := hroot
      simp [read, extended, stated, member?_insert, hnil, hformat, readContent, readSamples, readHints,
        readNames_strings, readPersist, boolOf, Except.mapError, hroot]

end

end Submission

namespace Service

/-- A body of written members is read to the submission that they state. -/
theorem readBody_of_members {m : String × List Char × Datum} {ms : List (String × List Char × Datum)}
    {n : Nat} (h : ∀ v ∈ m :: ms, JsonText.Written n v.2.1 v.2.2) (hlevels : n + 1 ≤ maxBodyLevels)
    {s : Submission} (hs : Submission.read (.map (JsonText.extended [] (m :: ms))) = .ok s) :
    readBody (String.ofList (JsonText.extendedText (m :: ms))) = .infer s := by
  have hmark : withoutMark (String.ofList (JsonText.extendedText (m :: ms))) =
      String.ofList (JsonText.extendedText (m :: ms)) := by
    rw [withoutMark, String.toList_ofList]
    rfl
  have hempty : String.ofList (JsonText.extendedText (m :: ms)) ≠ "" := by
    rw [JsonText.extendedText, JsonText.objectText]
    simp
  rw [readBody, if_neg hempty, hmark, JsonText.read_object h hlevels]
  simp only [hs]

/-- **A statement is taken for the submission that it states.** -/
theorem standardDispatch_statement (f : Format) (text : String) (columns : List String)
    {rootName : Option String} (persist : Bool)
    (hname : ∀ n ∈ rootName, 1 ≤ n.length ∧ n.length ≤ maxRootName) :
    standardDispatch (statement f text columns rootName persist) =
      .infer ⟨f, .content text, columns, rootName, persist⟩ := by
  have hroute : Route.ofPath? (Address.path "/schema/infer") = some .infer := by decide +kernel
  have hbody := readBody_of_members (Submission.written_stated f text columns rootName persist)
    (by decide) (Submission.read_stated f text columns persist hname)
  rw [standardDispatch, statement, hroute]
  refine (if_pos rfl).trans ?_
  rw [call, Option.getD_some, Submission.objectText_statementMembers]
  exact hbody

/-! ### Requests to read -/

/-- The address of a run leads to the run. -/
theorem ofPath?_run (n : Nat) : Route.ofPath? (runAddress n) = some (.run (Nat.repr n)) := by
  have hchars : (runAddress n).toList = '/' :: ("schema".toList ++ '/' ::
      ("runs".toList ++ '/' :: (Nat.repr n).toList)) := by
    rw [runAddress, String.toList_append]
    rfl
  have hparts : Address.parts '/' (runAddress n).toList =
      [[], "schema".toList, "runs".toList, (Nat.repr n).toList] := by
    rw [hchars, ← List.nil_append ('/' :: _), Address.parts_append List.not_mem_nil,
      Address.parts_append (by decide), Address.parts_append (by decide),
      Address.parts_of_notMem (Address.not_mem_repr rfl n)]
  have hempty : (Nat.repr n).toList.isEmpty = false := by simp
  have hexact : Route.ofExactPath? (runAddress n) = some (.run (Nat.repr n)) := by
    simp only [Route.ofExactPath?, hparts, hempty]
    rw [String.ofList_toList]
    rfl
  rw [Route.ofPath?, hexact]
  rfl

/-- The address of a run is read for its number. -/
theorem standardDispatch_run (n : Nat) :
    standardDispatch (runRequest n) = readNumber (Nat.repr n) := by
  rw [standardDispatch, runRequest, readRequest, Address.path_runAddress, ofPath?_run]
  exact if_pos rfl

/-- The address of a page is read for its size and its offset. -/
theorem standardDispatch_page (limit offset : Nat) :
    standardDispatch (pageRequest limit offset) = readPage (pageAddress limit offset) := by
  have hroute : Route.ofPath? "/schema/runs" = some .runs := by decide +kernel
  rw [standardDispatch, pageRequest, readRequest, Address.path_pageAddress, hroute]
  exact if_pos rfl

/-- A parameter that is a number within bounds. -/
theorem parameter_repr {address name : String} {n : Nat}
    (hvalue : Address.value? address name = some (Nat.repr n))
    (hlength : (Nat.repr n).length ≤ maxNumberDigits) {least : Nat} {greatest : Option Nat}
    (hleast : least ≤ n) (hgreatest : ∀ g ∈ greatest, n ≤ g) (default : Nat) :
    parameter address name least greatest default = (n, []) := by
  simp only [parameter, hvalue, Address.integerWithin_repr hlength hleast hgreatest]

/-- A parameter is a number within its bounds, or there is a problem with it. -/
theorem bounds_of_parameter {address name : String} {least default : Nat} {greatest : Option Nat}
    (hleast : least ≤ default) (hgreatest : ∀ g ∈ greatest, default ≤ g) :
    least ≤ (parameter address name least greatest default).1 ∧
      ∀ g ∈ greatest, (parameter address name least greatest default).1 ≤ g := by
  unfold parameter
  split
  · exact ⟨hleast, hgreatest⟩
  · split
    · exact Address.bounds_of_integerWithin ‹_›
    · exact ⟨hleast, hgreatest⟩

/-- A page of an admitted size is asked for, unless its offset has too many digits. -/
theorem readPage_repr {limit offset : Nat} (hleast : 1 ≤ limit) (hgreatest : limit ≤ maxPage) :
    readPage (pageAddress limit offset) =
      if maxNumberDigits < (Nat.repr offset).length then
        invalid [⟨.integerTooLong, [.member "query", .member "offset"]⟩]
      else .page limit offset := by
  have hlength : (Nat.repr limit).length ≤ maxNumberDigits := by
    have hdigits : (Nat.toDigits 10 limit).length ≤ 3 :=
      (Nat.length_toDigits_le_iff (by decide) (by decide)).mpr (Nat.lt_of_le_of_lt hgreatest (by decide))
    rw [Nat.repr_eq_ofList_toDigits, String.length_ofList]
    exact Nat.le_trans hdigits (by decide)
  have hlimit : parameter (pageAddress limit offset) "limit" 1 (some maxPage) defaultPage =
      (limit, []) := by
    refine parameter_repr Address.value?_limit hlength hleast ?_ _
    rintro g ⟨⟩
    exact hgreatest
  rw [readPage, hlimit]
  by_cases hlong : maxNumberDigits < (Nat.repr offset).length
  · have hoffset : parameter (pageAddress limit offset) "offset" 0 none 0 =
        (0, [⟨.integerTooLong, [.member "query", .member "offset"]⟩]) := by
      simp only [parameter, Address.value?_offset, Address.integerWithin_of_long hlong]
    rw [hoffset, if_pos hlong]
    rfl
  · have hoffset : parameter (pageAddress limit offset) "offset" 0 none 0 = (offset, []) :=
      parameter_repr Address.value?_offset (Nat.not_lt.mp hlong) (Nat.zero_le _) (by simp) _
    rw [hoffset, if_neg hlong]
    rfl

/-! ### The laws -/

/-- Whether a call keeps the bounds of the parameters, comes from a request by the right method, and is
no failure if it answers a request by `GET`. -/
def Call.Suits (r : Request) : Call → Prop
  | .infer s           =>
    r.method = "POST" ∧ ∀ n ∈ s.rootName, 1 ≤ n.length ∧ n.length ≤ maxRootName
  | .page limit _      => 1 ≤ limit ∧ limit ≤ maxPage
  | .run number        => 1 ≤ number
  | .health            => True
  | .answered response => r.method = "GET" → response.status ≠ 500

theorem suits_invalid (r : Request) (problems : List Problem) : (invalid problems).Suits r := nofun

/-- A body is read to a call that suits a request with it. -/
theorem suits_readBody {r : Request} (hmethod : r.method = "POST") (body : String) :
    (readBody body).Suits r := by
  have hanswered : ∀ response : Response, (Call.answered response).Suits r := by
    intro response hget
    exact absurd (hmethod.symm.trans hget) (by decide)
  unfold readBody
  split
  · exact suits_invalid r _
  · split
    · exact hanswered _
    · exact hanswered _
    · exact suits_invalid r _
    · split
      · unfold refused
        split
        · exact hanswered _
        · exact suits_invalid r _
      · exact ⟨hmethod, Submission.length_of_read ‹_›⟩

theorem suits_readPage (r : Request) (address : String) : (readPage address).Suits r := by
  have hdefault : ∀ g ∈ some maxPage, defaultPage ≤ g := by
    rintro g ⟨⟩
    decide
  have hbounds : 1 ≤ (parameter address "limit" 1 (some maxPage) defaultPage).1 ∧ _ :=
    bounds_of_parameter (by decide) hdefault
  unfold readPage
  dsimp only
  split
  · exact ⟨hbounds.1, hbounds.2 maxPage rfl⟩
  · exact suits_invalid r _

theorem suits_readNumber (r : Request) (number : String) : (readNumber number).Suits r := by
  unfold readNumber
  split
  · exact (Address.bounds_of_integerWithin ‹_›).1
  · exact suits_invalid r _

theorem suits_call {r : Request} {route : Route} (hmethod : r.method = route.method) :
    (call r route).Suits r := by
  cases route with
  | infer =>
      rw [call]
      exact suits_readBody hmethod _
  | runs =>
      rw [call]
      exact suits_readPage r _
  | run number =>
      rw [call]
      exact suits_readNumber r _
  | health => exact trivial

theorem suits_standardDispatch (r : Request) : (standardDispatch r).Suits r := by
  unfold standardDispatch
  split
  · exact nofun
  · split
    · exact suits_call ‹_›
    · exact nofun

theorem Framework.dispatch_standard : Framework.standard.dispatch = standardDispatch := by
  rw [standard]

theorem suits_of_dispatch {r : Request} {c : Call} (h : Framework.standard.dispatch r = c) :
    c.Suits r := by
  subst h
  rw [Framework.dispatch_standard]
  exact suits_standardDispatch r

theorem standardDispatch_runRequest {n : Nat} (hleast : 1 ≤ n) : standardDispatch (runRequest n) =
    if maxNumberDigits < (Nat.repr n).length then
      invalid [⟨.integerTooLong, [.member "path", .member "run_id"]⟩]
    else .run n := by
  rw [standardDispatch_run, readNumber]
  by_cases hlong : maxNumberDigits < (Nat.repr n).length
  · rw [Address.integerWithin_of_long hlong, if_pos hlong]
  · rw [Address.integerWithin_repr (Nat.not_lt.mp hlong) hleast (by simp), if_neg hlong]

/-- The framework that the program runs with is lawful. -/
theorem Framework.lawful_standard : Framework.standard.Lawful where
  infer_method h := (suits_of_dispatch h).1
  infer_name h := (suits_of_dispatch h).2
  page_bounds h := suits_of_dispatch h
  run_bounds h := suits_of_dispatch h
  get_answered hget h := suits_of_dispatch h hget
  statement f text columns rootName persist hname := by
    rw [dispatch_standard]
    exact standardDispatch_statement f text columns persist hname
  runRequest n hleast hlength := by
    rw [dispatch_standard, standardDispatch_runRequest hleast, if_neg (Nat.not_lt.mpr hlength)]
  pageRequest limit offset hleast hgreatest hlength := by
    rw [dispatch_standard, standardDispatch_page, readPage_repr hleast hgreatest,
      if_neg (Nat.not_lt.mpr hlength)]
  longNumber n hlength := by
    have hleast : 1 ≤ n := by
      rw [Nat.one_le_iff_ne_zero]
      rintro rfl
      exact absurd hlength (by decide)
    rw [dispatch_standard, standardDispatch_runRequest hleast, if_pos hlength]
    exact ⟨_, rfl⟩
  longOffset limit offset hleast hgreatest hlength := by
    rw [dispatch_standard, standardDispatch_page, readPage_repr hleast hgreatest, if_pos hlength]
    exact ⟨_, rfl⟩

end Service

end SampleSchema
