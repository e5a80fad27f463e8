/-!
# Validation

What is wrong with a value that somebody else supplies: the rule that it breaks and the place where
it stands.
-/

namespace SampleSchema

/-- The rules that a supplied value may break. -/
inductive Rule where
  | missing
  | notAnObject
  | notJson
  | notText
  | textTooShort
  | textTooLong
  | notAList
  | notAChoice
  | notABool
  | notABoolWord
  | notAnInteger
  | integerTooLong
  | tooSmall
  | tooLarge
  /-- A rule about the whole value, with its own message. -/
  | inconsistent (message : String)
  deriving DecidableEq, Repr

/-- The name of a rule. -/
def Rule.name : Rule → String
  | .missing        => "missing"
  | .notAnObject    => "model_attributes_type"
  | .notJson        => "json_invalid"
  | .notText        => "string_type"
  | .textTooShort   => "string_too_short"
  | .textTooLong    => "string_too_long"
  | .notAList       => "list_type"
  | .notAChoice     => "literal_error"
  | .notABool       => "bool_type"
  | .notABoolWord   => "bool_parsing"
  | .notAnInteger   => "int_parsing"
  | .integerTooLong => "int_parsing_size"
  | .tooSmall       => "greater_than_equal"
  | .tooLarge       => "less_than_equal"
  | .inconsistent _ => "value_error"

/-- A step on the way to a value: into a member or to an item. -/
inductive Step where
  | member (name : String)
  | item (index : Nat)
  deriving DecidableEq, Repr

/-- A broken rule and the way to the value that breaks it. -/
structure Problem where
  rule     : Rule
  location : List Step
  deriving DecidableEq, Repr

/-- The message of a problem, for the rules that have one. -/
def Problem.message? (p : Problem) : Option String :=
  match p.rule with
  | .inconsistent message => some ("Value error, " ++ message)
  | _ => none

end SampleSchema
