import SampleSchema.Json.Reader
import SampleSchema.Service.Framework
import SampleSchema.Standard.Address
import SampleSchema.Standard.Submission

/-!
# Routing

Requests are told apart by the paths of their addresses and by their methods, and their parameters are
read and checked.

* `Service.Framework.standard` is the framework that does so.
-/

namespace SampleSchema.Service

/-- The answer of the framework to a request that breaks rules. -/
def invalid (problems : List Problem) : Call := .answered ⟨422, .problems problems⟩

/-- The answer of the framework to a submission that breaks rules. It shows each value that breaks one,
which fails for a number that JSON cannot write. -/
def refused (rs : List Refusal) : Call :=
  if rs.any (·.input.hasNonFinite) then .answered failed else invalid (rs.map Refusal.problem)

/-- A body without the byte order mark at its start. -/
def withoutMark (body : String) : String :=
  match body.toList with
  | '\ufeff' :: cs => String.ofList cs
  | _ => body

/-- The most levels of arrays and objects in a body. -/
def maxBodyLevels : Nat := 960

/-- What a request to infer a schema asks for. -/
def readBody (body : String) : Call :=
  if body = "" then invalid [⟨.missing, [.member "body"]⟩]
  else match JsonText.read maxBodyLevels (withoutMark body) with
    | .error .longInteger | .error .tooDeep =>
      .answered ⟨400, .reason "There was an error parsing the body"⟩
    | .error (.malformed _ rest) =>
      invalid [⟨.notJson, [.member "body", .item (JsonText.offset (withoutMark body) rest)]⟩]
    | .ok d =>
      match Submission.read d with
      | .error rs => refused rs
      | .ok s     => .infer s

/-- The number of runs on a page unless another one is asked for. -/
def defaultPage : Nat := 50

/-- The value of a name in the query of an address, within bounds, and the problem with it. -/
def parameter (address name : String) (least : Nat) (greatest : Option Nat) (default : Nat) :
    Nat × List Problem :=
  match Address.value? address name with
  | none => (default, [])
  | some s =>
    match Address.integerWithin least greatest s with
    | .ok n => (n, [])
    | .error rule => (default, [⟨rule, [.member "query", .member name]⟩])

/-- What a request for a page of runs asks for. -/
def readPage (address : String) : Call :=
  let (limit, limitProblems) := parameter address "limit" 1 (some maxPage) defaultPage
  let (offset, offsetProblems) := parameter address "offset" 0 none 0
  let problems := limitProblems ++ offsetProblems
  if problems.isEmpty then .page limit offset else invalid problems

/-- What a request for one run asks for. -/
def readNumber (number : String) : Call :=
  match Address.integerWithin 1 none number with
  | .ok n => .run n
  | .error rule => invalid [⟨rule, [.member "path", .member "run_id"]⟩]

/-- What a request asks for that reached what it was sent to. -/
def call (r : Request) : Route → Call
  | .infer      => readBody (r.body.getD "")
  | .runs       => readPage r.address
  | .run number => readNumber number
  | .health     => .health

/-- What an answer to a method holds; the method for headers alone gets no content. -/
def Content.toMethod (method : String) (c : Content) : Content := if method = "HEAD" then .text "" else c

/-- What the framework makes of a request. -/
def standardDispatch (r : Request) : Call :=
  match Route.ofPath? (Address.path r.address) with
  | none => .answered ⟨404, .toMethod r.method (.reason "Not Found")⟩
  | some route =>
    if r.method = route.method then call r route
    else .answered ⟨405, .toMethod r.method (.reason "Method Not Allowed")⟩

/-- The framework. -/
def Framework.standard : Framework := ⟨standardDispatch⟩

end SampleSchema.Service
