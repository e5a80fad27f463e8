import SampleSchema.Proofs.RunHistory

/-!
# Storing a run or not

Two bodies that differ only in what they say of storing the run are read to submissions that differ only
in that, or they are refused for the same reasons (`Submission.read_twins`).  So two requests with such
bodies are two such calls, or have the same answer (`Service.standardDispatch_twins`), and in either
case they are answered alike (`Service.alike_of_sends`).
-/

namespace SampleSchema

theorem anyEntryNonFinite_insert {d e : Datum} (h : d.hasNonFinite = e.hasNonFinite) (key : Datum) :
    ∀ entries : List (Datum × Datum),
    anyEntryNonFinite (Datum.insert key d entries) = anyEntryNonFinite (Datum.insert key e entries)
  | [] => by simp only [Datum.insert, anyEntryNonFinite, h]
  | (k, v) :: entries => by
      rw [Datum.insert, Datum.insert]
      split
      · simp only [anyEntryNonFinite, h]
      · simp only [anyEntryNonFinite, anyEntryNonFinite_insert h key entries]

namespace Submission

/-- A truth value, however it is written, is no infinite number. -/
theorem hasNonFinite_of_boolOf {d : Datum} {b : Bool} (h : boolOf d = .ok b) :
    d.hasNonFinite = false := by
  cases d with
  | float x =>
      cases hx : x.isFinite with
      | true => rw [Datum.hasNonFinite, hx, Bool.not_true]
      | false =>
          unfold boolOf at h
          simp [hx] at h
  | list items => cases h
  | map entries => cases h
  | _ => rfl

theorem readPersist_of_boolOf {d : Datum} {b : Bool} (h : boolOf d = .ok b) :
    readPersist (some d) = .ok b := by
  rw [readPersist, h]
  rfl

/-- Bodies that differ in what they say of storing the run are read to submissions that differ in
that, or are refused for the same reasons. -/
theorem read_twins {yes no : Datum} (hyes : boolOf yes = .ok true) (hno : boolOf no = .ok false)
    (entries : List (Datum × Datum)) :
    (∃ s, read (.map (Datum.insert (.string "persist") yes entries)) = .ok s ∧ s.persist = true ∧
      read (.map (Datum.insert (.string "persist") no entries)) = .ok { s with persist := false }) ∨
    (∃ rs rs', read (.map (Datum.insert (.string "persist") yes entries)) = .error rs ∧
      read (.map (Datum.insert (.string "persist") no entries)) = .error rs' ∧
      Service.refused rs = Service.refused rs') := by
  have hbody : (Datum.map (Datum.insert (.string "persist") yes entries)).hasNonFinite =
      (Datum.map (Datum.insert (.string "persist") no entries)).hasNonFinite :=
    anyEntryNonFinite_insert
      ((hasNonFinite_of_boolOf hyes).trans (hasNonFinite_of_boolOf hno).symm) _ entries
  have hother : ∀ d name, "persist" ≠ name →
      member? (Datum.insert (.string "persist") d entries) name = member? entries name :=
    fun d name h => by rw [member?_insert, if_neg h]
  simp only [read, hother _ _ (by decide : "persist" ≠ "format"),
    hother _ _ (by decide : "persist" ≠ "content"), hother _ _ (by decide : "persist" ≠ "samples"),
    hother _ _ (by decide : "persist" ≠ "numeric_columns"),
    hother _ _ (by decide : "persist" ≠ "root_type_name"), member?_insert, if_true,
    readPersist_of_boolOf hyes, readPersist_of_boolOf hno]
  rcases readFormat (member? entries "format") with rs | format
  · exact .inr ⟨_, _, rfl, rfl, rfl⟩
  rcases readContent (member? entries "content") with rs | content
  · exact .inr ⟨_, _, rfl, rfl, rfl⟩
  rcases readSamples (member? entries "samples") with rs | samples
  · exact .inr ⟨_, _, rfl, rfl, rfl⟩
  rcases readHints (member? entries "numeric_columns") with rs | hints
  · exact .inr ⟨_, _, rfl, rfl, rfl⟩
  rcases readRootName (member? entries "root_type_name") with rs | rootName
  · exact .inr ⟨_, _, rfl, rfl, rfl⟩
  rcases content with - | text <;> rcases samples with - | ds
  · refine .inr ⟨_, _, rfl, rfl, ?_⟩
    simp [Service.refused, hbody]
  · exact .inl ⟨_, rfl, rfl, rfl⟩
  · exact .inl ⟨_, rfl, rfl, rfl⟩
  · refine .inr ⟨_, _, rfl, rfl, ?_⟩
    simp [Service.refused, hbody]

end Submission

namespace Service

/-- Whether a request to infer a schema has a body that is read to a value. -/
structure Request.Sends (r : Request) (d : Datum) : Prop where
  method : r.method = "POST"
  route  : Route.ofPath? (Address.path r.address) = some .infer
  body   : JsonText.read maxBodyLevels (withoutMark (r.body.getD "")) = .ok d

theorem standardDispatch_of_sends {r : Request} {d : Datum} (h : r.Sends d) :
    standardDispatch r = match Submission.read d with
      | .error rs => refused rs
      | .ok s     => .infer s := by
  have hempty : r.body.getD "" ≠ "" := by
    intro he
    have hread := h.body
    rw [he] at hread
    exact absurd (JsonText.isBlankText_of_read hread) (by decide)
  rw [standardDispatch, h.route]
  refine (if_pos h.method).trans ?_
  cases hread : Submission.read d <;> simp only [call, readBody, if_neg hempty, h.body, hread]

/-- Requests whose bodies differ in what they say of storing the run are calls that differ in that, or
they are answered alike. -/
theorem standardDispatch_twins {r r' : Request} {yes no : Datum} {entries : List (Datum × Datum)}
    (hyes : Submission.boolOf yes = .ok true) (hno : Submission.boolOf no = .ok false)
    (hr : r.Sends (.map (Datum.insert (.string "persist") yes entries)))
    (hr' : r'.Sends (.map (Datum.insert (.string "persist") no entries))) :
    (∃ s, s.persist = true ∧ standardDispatch r = .infer s ∧
        standardDispatch r' = .infer { s with persist := false }) ∨
      ∃ call, standardDispatch r = call ∧ standardDispatch r' = call := by
  rw [standardDispatch_of_sends hr, standardDispatch_of_sends hr']
  rcases Submission.read_twins hyes hno entries with ⟨s, hs, hp, hs'⟩ | ⟨rs, rs', hrs, hrs', he⟩
  · exact .inl ⟨s, hp, by rw [hs], by rw [hs']⟩
  · rw [hrs, hrs']
    exact .inr ⟨_, rfl, he.symm⟩

/-- Requests whose bodies differ in what they say of storing the run are answered alike, but for the
number of the run. -/
theorem alike_of_sends {r r' : Request} {yes no : Datum} {entries : List (Datum × Datum)}
    (hyes : Submission.boolOf yes = .ok true) (hno : Submission.boolOf no = .ok false)
    (hr : r.Sends (.map (Datum.insert (.string "persist") yes entries)))
    (hr' : r'.Sends (.map (Datum.insert (.string "persist") no entries)))
    {db : Packages.standard.database.State} {xs : List RunRecord}
    (hdb : Packages.standard.database.rows? db = some (RunRecord.rows xs)) :
    Alike (handle .standard db r).1 (handle .standard db r').1 := by
  have hdispatch : Packages.standard.framework.dispatch = standardDispatch :=
    Framework.dispatch_standard
  obtain ⟨s, hpersist, hcall, hcall'⟩ | ⟨call, hcall, hcall'⟩ :=
    standardDispatch_twins hyes hno hr hr'
  · rw [← hdispatch] at hcall hcall'
    exact alike_of_persist Packages.lawful_standard hdb hcall hpersist hcall'
  · rw [← hdispatch] at hcall hcall'
    rw [handle, handle, hcall, hcall']
    exact .same _

end Service

end SampleSchema
