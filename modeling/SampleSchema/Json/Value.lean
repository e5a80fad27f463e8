/-!
# JSON values

The values of JSON that reports and answers are made of, with members in a fixed order.
-/

namespace SampleSchema

/-- A JSON value whose numbers are integers. -/
inductive Json where
  | null
  | bool (value : Bool)
  | int (value : Int)
  | string (value : String)
  | array (items : List Json)
  | object (members : List (String × Json))
  deriving Repr

/-- The JSON value of a text that may be missing. -/
def Json.ofText? (s : Option String) : Json := (s.map Json.string).getD .null

/-- The JSON value of a natural number that may be missing. -/
def Json.ofNat? (n : Option Nat) : Json := (n.map fun n => Json.int n).getD .null

end SampleSchema
