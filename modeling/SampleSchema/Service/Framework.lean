import SampleSchema.Json.Compact
import SampleSchema.Json.Value
import SampleSchema.Service.Submission
import SampleSchema.Validation

/-!
# Requests, answers and the framework between

Requests reach the service through a framework, which finds out what is asked for, takes the parameters
out of the address and the body and checks them. It answers a request itself if there is nothing at
the address or a parameter breaks a rule; any other one is a call of the service.

* `Framework` is such a framework, and `Framework.Lawful` what the service relies on.
-/

namespace SampleSchema.Service

/-- A request. -/
structure Request where
  method  : String
  address : String
  body    : Option String := none
  deriving DecidableEq, Repr

/-- What an answer holds. -/
inductive Content where
  | value (value : Json)
  /-- Why there is no answer, in words. -/
  | reason (text : String)
  /-- The rules that the request breaks. -/
  | problems (problems : List Problem)
  /-- A text that is no JSON. -/
  | text (text : String)
  deriving Repr

/-- An answer: its status and what it holds. -/
structure Response where
  status  : Nat
  content : Content
  deriving Repr

/-- The answer to a request during which something failed. -/
def failed : Response := ⟨500, .text "Internal Server Error"⟩

/-- What a framework makes of a request. -/
inductive Call where
  /-- To infer a schema. -/
  | infer (s : Submission)
  /-- To list stored runs. -/
  | page (limit offset : Nat)
  /-- To look a stored run up. -/
  | run (number : Nat)
  | health
  /-- Nothing for the service, since the framework has answered. -/
  | answered (response : Response)

/-- The greatest number of runs on a page. -/
def maxPage : Nat := 500

/-- A framework. -/
structure Framework where
  dispatch : Request → Call

/-! ### Requests in their plainest form -/

/-- The members of the body that submits a text. -/
def statementMembers (f : Format) (text : String) (columns : List String) (rootName : Option String)
    (persist : Bool) : List (String × List Char) :=
  ("format", JsonText.quoted f.name) :: ("content", JsonText.quoted text) ::
    ("numeric_columns", JsonText.arrayText (columns.map JsonText.quoted)) ::
    ("persist", JsonText.boolText persist) ::
    rootName.toList.map fun n => ("root_type_name", JsonText.quoted n)

/-- A request to infer a schema from a text. -/
def statement (f : Format) (text : String) (columns : List String) (rootName : Option String)
    (persist : Bool) : Request where
  method  := "POST"
  address := "/schema/infer"
  body    := some (String.ofList
    (JsonText.objectText (statementMembers f text columns rootName persist)))

/-- A request to read. -/
def readRequest (address : String) : Request := { method := "GET", address := address }

/-- The address of the run of a number. -/
def runAddress (number : Nat) : String := "/schema/runs/" ++ Nat.repr number

/-- A request for the run of a number. -/
def runRequest (number : Nat) : Request := readRequest (runAddress number)

/-- The address of a page. -/
def pageAddress (limit offset : Nat) : String :=
  "/schema/runs?limit=" ++ Nat.repr limit ++ "&offset=" ++ Nat.repr offset

/-- A request for a page. -/
def pageRequest (limit offset : Nat) : Request := readRequest (pageAddress limit offset)

/-- The most digits that a number in an address may have. -/
def maxNumberDigits : Nat := 4300

/-- What the service relies on in a framework: it keeps the bounds that the service declares for the
parameters, it takes submissions by `POST` only, it does not fail on a request by `GET`, and requests
in their plainest form are the calls that they look like, but for numbers of too many digits, which it
refuses. -/
structure Framework.Lawful (f : Framework) : Prop where
  infer_method : ∀ {r s}, f.dispatch r = .infer s → r.method = "POST"
  infer_name   : ∀ {r s}, f.dispatch r = .infer s →
    ∀ n ∈ s.rootName, 1 ≤ n.length ∧ n.length ≤ maxRootName
  page_bounds  : ∀ {r limit offset}, f.dispatch r = .page limit offset → 1 ≤ limit ∧ limit ≤ maxPage
  run_bounds   : ∀ {r number}, f.dispatch r = .run number → 1 ≤ number
  get_answered : ∀ {r response}, r.method = "GET" → f.dispatch r = .answered response →
    response.status ≠ 500
  statement    : ∀ (format : Format) (text : String) (columns : List String)
    (rootName : Option String) (persist : Bool),
    (∀ n ∈ rootName, 1 ≤ n.length ∧ n.length ≤ maxRootName) →
    f.dispatch (Service.statement format text columns rootName persist) =
      .infer ⟨format, .content text, columns, rootName, persist⟩
  runRequest   : ∀ number : Nat, 1 ≤ number → (Nat.repr number).length ≤ maxNumberDigits →
    f.dispatch (Service.runRequest number) = .run number
  pageRequest  : ∀ limit offset : Nat, 1 ≤ limit → limit ≤ maxPage →
    (Nat.repr offset).length ≤ maxNumberDigits →
    f.dispatch (Service.pageRequest limit offset) = .page limit offset
  longNumber   : ∀ number : Nat, maxNumberDigits < (Nat.repr number).length →
    ∃ content, f.dispatch (Service.runRequest number) = .answered ⟨422, content⟩
  longOffset   : ∀ limit offset : Nat, 1 ≤ limit → limit ≤ maxPage →
    maxNumberDigits < (Nat.repr offset).length →
    ∃ content, f.dispatch (Service.pageRequest limit offset) = .answered ⟨422, content⟩

end SampleSchema.Service
