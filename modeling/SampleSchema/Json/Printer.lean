import SampleSchema.Json.Value
import SampleSchema.Text.Digits

/-!
# The text of JSON values

A JSON value is written with every item and every member on a line of its own, indented by two spaces
a level; an array without items and an object without members stay on their line. Inside a text only
quotes, backslashes and control characters are escaped, the latter by a letter where there is one and
else by their code point.

* `Json.text` is the text of a value.
-/

namespace SampleSchema.Json

/-- A character as it stands inside a text. -/
def escaped (c : Char) : String :=
  if c = '"' ∨ c = '\\' then "\\" ++ c.toString
  else if c = '\n' then "\\n"
  else if c = '\r' then "\\r"
  else if c = '\t' then "\\t"
  else if c = '\x08' then "\\b"
  else if c = '\x0c' then "\\f"
  else if c.toNat < 0x20 then "\\u" ++ Text.hex 4 c.toNat
  else c.toString

/-- A text between quotes. -/
def quoted (s : String) : String := "\"" ++ String.join (s.toList.map escaped) ++ "\""

/-- The start of a new line at a level. -/
def lineStart (level : Nat) : String := "\n" ++ String.ofList (List.replicate (2 * level) ' ')

mutual

/-- The text of a value whose first line is at a level. -/
def textAt (level : Nat) : Json → String
  | .null             => "null"
  | .bool true        => "true"
  | .bool false       => "false"
  | .int n            => Int.repr n
  | .string s         => quoted s
  | .array []         => "[]"
  | .array (x :: xs)  =>
    "[" ++ lineStart (level + 1) ++ textAt (level + 1) x ++ itemsText (level + 1) xs ++
      lineStart level ++ "]"
  | .object []        => "\x7b\x7d"
  | .object (m :: ms) =>
    "\x7b" ++ lineStart (level + 1) ++ quoted m.1 ++ ": " ++ textAt (level + 1) m.2 ++
      membersText (level + 1) ms ++ lineStart level ++ "\x7d"

/-- The text of the items after the first one, at a level. -/
def itemsText (level : Nat) : List Json → String
  | []      => ""
  | x :: xs => "," ++ lineStart level ++ textAt level x ++ itemsText level xs

/-- The text of the members after the first one, at a level. -/
def membersText (level : Nat) : List (String × Json) → String
  | []      => ""
  | m :: ms =>
    "," ++ lineStart level ++ quoted m.1 ++ ": " ++ textAt level m.2 ++ membersText level ms

end

/-- The text of a value. -/
def text (v : Json) : String := v.textAt 0

end SampleSchema.Json
