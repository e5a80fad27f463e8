import SampleSchema.Json.Printer

/-!
# JSON texts without white space

Texts that write arrays and objects, where other texts write their parts.

* `JsonText.quoted`, `JsonText.arrayText` and `JsonText.objectText` are the ways to write a value.
-/

namespace SampleSchema.JsonText

/-- The characters of a text up to its closing quote. -/
def inner (cs : List Char) : List Char := cs.flatMap fun c => (Json.escaped c).toList

/-- A text between quotes. -/
def quoted (s : String) : List Char := '"' :: (inner s.toList ++ ['"'])

/-- A truth value. -/
def boolText (b : Bool) : List Char := if b then ['t', 'r', 'u', 'e'] else ['f', 'a', 'l', 's', 'e']

/-- Texts after each other, with a comma between two of them. -/
def listed : List (List Char) → List Char
  | []        => []
  | cs :: css => cs ++ css.flatMap (',' :: ·)

/-- An array, where texts write its items. -/
def arrayText (css : List (List Char)) : List Char := '[' :: (listed css ++ [']'])

/-- A member of an object, where a text writes its value. -/
def memberText (name : String) (cs : List Char) : List Char := quoted name ++ ':' :: cs

/-- An object, where texts write the values of its members. -/
def objectText (ms : List (String × List Char)) : List Char :=
  '\x7b' :: (listed (ms.map fun m => memberText m.1 m.2) ++ ['\x7d'])

end SampleSchema.JsonText
