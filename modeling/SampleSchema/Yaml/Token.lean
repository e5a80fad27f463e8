import SampleSchema.Number.Literal
import SampleSchema.Yaml.Cursor

/-!
# Tokens

The marks, names and scalars that a YAML text is made of. Besides the marks that stand in the text
there are those that indentation implies: the start of a block sequence or mapping, the end of a block
collection, and the mark before a key that has no question mark.

The readers here read what stands after `%`, `&`, `*` and `!`.
-/

namespace SampleSchema.Yaml

/-- What a line that starts with a percent sign says. -/
inductive Directive where
  /-- The version of YAML, by its first number. -/
  | version (major : Nat)
  /-- What a tag handle stands for. -/
  | handle (name uri : String)
  | other
  deriving DecidableEq, Repr

/-- A token; a fault stands in the place of the token that cannot be read. -/
inductive Token where
  | directive (value : Directive)
  | documentStart
  | documentEnd
  | streamEnd
  | blockSequenceStart
  | blockMappingStart
  | blockEnd
  | flowSequenceStart
  | flowSequenceEnd
  | flowMappingStart
  | flowMappingEnd
  | blockEntry
  | flowEntry
  | key
  | value
  | alias (name : String)
  | anchor (name : String)
  | tag (handle : Option String) (suffix : String)
  | scalar (text : String) (plain : Bool)
  | fault (reason : Fault)
  deriving DecidableEq, Repr

/-- Reads a name of at least one character. -/
def name : Read String := do
  let cs ← takeWhile isNameChar
  need (!cs.isEmpty)
  return String.ofList cs

/-- Reads a number of a version. -/
def versionNumber : Read Nat := do
  let ds ← takeWhile Char.isDigit
  need (!ds.isEmpty)
  if Literal.maxDigits < ds.length then throw .badScalar
  return Text.ofDigits (ds.filterMap (Text.digitValue? 10))

/-- Reads a tag handle: a mark alone before a space, or marks around a name. -/
def tagHandle : Read String := do
  need ((← peek 0) = some '!')
  skip 1
  if (← peek 0) = some ' ' then return "!"
  else
    let cs ← takeWhile isNameChar
    need ((← peek 0) = some '!')
    skip 1
    return String.ofList ('!' :: cs ++ ['!'])

/-- Whether a character stands for itself in the name of a tag. -/
def isTagChar (c : Char) : Bool := c.isAlphanum || "-;/?:@&=+$,_.!~*'()[]".toList.contains c

/-- Reads a byte written as a percent sign and two digits. -/
def escapedByte : Read UInt8 := do
  skip 1
  match (← peek 0).bind Text.hexValue?, (← peek 1).bind Text.hexValue? with
  | some a, some b =>
    skip 2
    return UInt8.ofNat (16 * a + b)
  | _, _ => refuse

/-- Reads escaped bytes, which have to make up whole characters. -/
def escapedBytes : Read String := do
  let bytes ← many (fun bytes => do
    if (← peek 0) = some '%' then return (bytes.push (← escapedByte), true)
    else return (bytes, false)) ByteArray.empty
  match String.fromUTF8? bytes with
  | some s => return s
  | none => refuse

/-- Reads the name of a tag. -/
def tagName : Read String := do
  let text ← many (fun text => do
    let cs ← takeWhile isTagChar
    let text := text ++ String.ofList cs
    if (← peek 0) = some '%' then return (text ++ (← escapedBytes), true)
    else return (text, false)) ""
  need (!text.isEmpty)
  return text

/-- Reads a directive. -/
def directive : Read Directive := do
  skip 1
  let name ← name
  need (isSpaceOrEnd (← peek 0))
  let value ← match name with
    | "YAML" => do
      skipSpaces
      let major ← versionNumber
      need ((← peek 0) = some '.')
      skip 1
      let _ ← versionNumber
      need (isSpaceOrEnd (← peek 0))
      pure (.version major)
    | "TAG" => do
      skipSpaces
      let handle ← tagHandle
      need ((← peek 0) = some ' ')
      skipSpaces
      let uri ← tagName
      need (isSpaceOrEnd (← peek 0))
      pure (.handle handle uri)
    | _ => do
      let _ ← takeWhile (!isBreak ·)
      pure .other
  commentLine
  return value

/-- Reads the name of an anchor or an alias after its mark. -/
def anchorName : Read String := do
  skip 1
  let name ← name
  let next ← peek 0
  need (isGap next || next.any ("?:,]\x7d%@\x60".toList.contains ·))
  return name

/-- Reads a tag: its handle, which is missing for a tag in full, and the rest of its name. -/
def tag : Read (Option String × String) := do
  let next ← peek 1
  let tag ←
    if next = some '<' then
      skip 2
      let name ← tagName
      need ((← peek 0) = some '>')
      skip 1
      pure (none, name)
    else if isGap next then
      skip 1
      pure (none, "!")
    else do
      let word := ((← get).rest.drop 1).takeWhile fun c => !isSpaceOrEnd (some c)
      let handle ← if word.contains '!' then tagHandle else do skip 1; pure "!"
      pure (some handle, ← tagName)
  need (isSpaceOrEnd (← peek 0))
  return tag

end SampleSchema.Yaml
