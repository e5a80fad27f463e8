import SampleSchema.Service.Submission
import SampleSchema.Validation

/-!
# Bodies of requests

A submission is read from a decoded value; each member that does not fit is a refusal, and all of them
are told at once.  Only when every member fits does it count whether exactly one of the two sources is
given.

* `Submission.read` reads a submission.
-/

namespace SampleSchema

/-- A broken rule with the value that breaks it. -/
structure Refusal where
  problem : Problem
  input   : Datum

mutual

/-- Whether a value holds a number that is infinite or not a number. -/
def Datum.hasNonFinite : Datum → Bool
  | .float x => !x.isFinite
  | .list ds => anyNonFinite ds
  | .map es  => anyEntryNonFinite es
  | _        => false

/-- Whether a value of a list holds such a number. -/
def anyNonFinite : List Datum → Bool
  | []      => false
  | d :: ds => d.hasNonFinite || anyNonFinite ds

/-- Whether the value of an entry holds such a number. -/
def anyEntryNonFinite : List (Datum × Datum) → Bool
  | []           => false
  | (_, v) :: es => v.hasNonFinite || anyEntryNonFinite es

end

namespace Submission

/-- The outcome of reading a member. -/
abbrev Member (α : Type) := Except (List Refusal) α

/-- Refuses a value at the end of a way. -/
def refuse {α : Type} (rule : Rule) (steps : List Step) (input : Datum) : Member α :=
  .error [⟨⟨rule, steps⟩, input⟩]

/-- The way to a member of the body. -/
def path (name : String) : List Step := [.member "body", .member name]

/-- The refusals of an outcome. -/
def refusals {α : Type} : Member α → List Refusal
  | .ok _ => []
  | .error rs => rs

/-- The value of a member of a mapping. -/
def member? (entries : List (Datum × Datum)) (name : String) : Option Datum :=
  entries.findSome? fun e => match e.1 with
    | .string s => if s = name then some e.2 else none
    | _ => none

/-- The format; without one it is JSON. -/
def readFormat : Option Datum → Member Format
  | none => .ok .json
  | some d =>
    match d with
    | .string s =>
      match Format.ofName? s with
      | some f => .ok f
      | none => refuse .notAChoice (path "format") d
    | _ => refuse .notAChoice (path "format") d

/-- The text to read, if there is one. -/
def readContent : Option Datum → Member (Option String)
  | none | some .null => .ok none
  | some (.string s) => .ok (some s)
  | some d => refuse .notText (path "content") d

/-- The decoded samples, if there are any. -/
def readSamples : Option Datum → Member (Option (List Datum))
  | none | some .null => .ok none
  | some (.list ds) => .ok (some ds)
  | some d => refuse .notAList (path "samples") d

/-- The names of columns, where the first has the given index. -/
def readNames (index : Nat) : List Datum → Member (List String)
  | [] => .ok []
  | .string s :: ds =>
    match readNames (index + 1) ds with
    | .ok names => .ok (s :: names)
    | .error rs => .error rs
  | d :: ds =>
    .error (⟨⟨.notText, path "numeric_columns" ++ [.item index]⟩, d⟩ ::
      refusals (readNames (index + 1) ds))

/-- The columns that hold numbers. -/
def readHints : Option Datum → Member (List String)
  | none => .ok []
  | some (.list ds) => readNames 0 ds
  | some d => refuse .notAList (path "numeric_columns") d

/-- The root name, if there is one. -/
def readRootName : Option Datum → Member (Option String)
  | none | some .null => .ok none
  | some (.string s) =>
    if s.length = 0 then refuse .textTooShort (path "root_type_name") (.string s)
    else if maxRootName < s.length then refuse .textTooLong (path "root_type_name") (.string s)
    else .ok (some s)
  | some d => refuse .notText (path "root_type_name") d

/-- The words for true, in any case. -/
def trueWords : List String := ["1", "on", "t", "true", "y", "yes"]

/-- The words for false, in any case. -/
def falseWords : List String := ["0", "off", "f", "false", "n", "no"]

/-- The truth value that a value stands for: a word, or one of the numbers 0 and 1. -/
def boolOf (d : Datum) : Except Rule Bool :=
  match d with
  | .bool b => .ok b
  | .string s =>
    if trueWords.contains s.toLower then .ok true
    else if falseWords.contains s.toLower then .ok false
    else .error .notABoolWord
  | .int n =>
    if n = 0 then .ok false
    else if n = 1 then .ok true
    else if (Double.ofInt n).isFinite then .error .notABoolWord
    else .error .notABool
  | .float x =>
    if x.isFinite && x.toRatio.1 % x.toRatio.2 = 0 then
      if x.toRatio.1 = 0 then .ok false
      else if x.toRatio.1 = x.toRatio.2 then .ok true
      else .error .notABoolWord
    else .error .notABool
  | _ => .error .notABool

/-- Whether to store the run; by default it is stored. -/
def readPersist : Option Datum → Member Bool
  | none => .ok true
  | some d => (boolOf d).mapError fun rule => [⟨⟨rule, path "persist"⟩, d⟩]

/-- Reads a submission. -/
def read (body : Datum) : Member Submission :=
  match body with
  | .map entries =>
    let get := member? entries
    let format := readFormat (get "format")
    let content := readContent (get "content")
    let samples := readSamples (get "samples")
    let hints := readHints (get "numeric_columns")
    let rootName := readRootName (get "root_type_name")
    let persist := readPersist (get "persist")
    match format, content, samples, hints, rootName, persist with
    | .ok format, .ok content, .ok samples, .ok hints, .ok rootName, .ok persist =>
      match content, samples with
      | some text, none => .ok ⟨format, .content text, hints, rootName, persist⟩
      | none, some ds => .ok ⟨format, .samples ds, hints, rootName, persist⟩
      | _, _ =>
        refuse (.inconsistent "Provide exactly one of 'content' or 'samples'") [.member "body"] body
    | _, _, _, _, _, _ =>
      .error (refusals format ++ refusals content ++ refusals samples ++ refusals hints ++
        refusals rootName ++ refusals persist)
  | d => refuse .notAnObject [.member "body"] d

end Submission

end SampleSchema
