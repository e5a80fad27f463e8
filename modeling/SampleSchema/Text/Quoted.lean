import SampleSchema.Text.Digits
import SampleSchema.Text.Printable

/-!
# Quoted text

How a text is shown inside a message. Single quotes stand around it, or double quotes if it holds a
single quote and no double one. Inside, a backslash and the quote in use get a backslash, a line
feed, a carriage return and a tab have short escapes, and every other character that is not
printable is written by its code point.
-/

namespace SampleSchema.Text

/-- The quote to put around a text. -/
def quoteFor (cs : List Char) : Char :=
  if cs.contains '\'' && !cs.contains '"' then '"' else '\''

/-- A code point as an escape of two, four or eight digits. -/
def codePointEscape (n : Nat) : String :=
  if n < 0x100 then "\\x" ++ hex 2 n
  else if n < 0x10000 then "\\u" ++ hex 4 n
  else "\\U" ++ hex 8 n

/-- A character as it stands between quotes. -/
def quotedChar (quote c : Char) : String :=
  if c = quote ∨ c = '\\' then "\\" ++ c.toString
  else if c = '\n' then "\\n"
  else if c = '\r' then "\\r"
  else if c = '\t' then "\\t"
  else if isPrintable c then c.toString
  else codePointEscape c.toNat

/-- A text between quotes. -/
def quoted (s : String) : String :=
  let q := quoteFor s.toList
  q.toString ++ String.join (s.toList.map (quotedChar q)) ++ q.toString

/-- Bytes between quotes, after the letter `b`; a byte outside ASCII is written by its number. -/
def quotedBytes (bytes : List UInt8) : String :=
  let cs := bytes.map fun b => Char.ofNat b.toNat
  let q := quoteFor cs
  let shown (c : Char) : String :=
    if c.toNat < 0x80 then quotedChar q c else codePointEscape c.toNat
  "b" ++ q.toString ++ String.join (cs.map shown) ++ q.toString

end SampleSchema.Text
