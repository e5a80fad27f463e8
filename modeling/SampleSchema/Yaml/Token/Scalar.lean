import SampleSchema.Yaml.Cursor

/-!
# The texts of scalars

The three ways to write a scalar. A plain scalar has no marks around it and ends where something else
begins; a quoted one stands between single or double quotes, and between double ones a backslash
starts an escape; a block scalar is a run of indented lines under a header. In the first two a single
line break between words is a space, and of more line breaks the first is dropped; a block scalar
keeps its line breaks or folds them in the same way.
-/

namespace SampleSchema.Yaml

/-! ### Plain scalars -/

/-- The words of a plain scalar up to the next white space; in a flow collection its marks end the
scalar too. -/
def plainRun (flow : Bool) : List Char → List Char
  | [] => []
  | c :: cs =>
    let marks := ",[]\x7b\x7d".toList
    let endsKey := c = ':' && (isGap cs.head? || flow && cs.head?.any (marks.contains ·))
    let endsItem := flow && (c = '?' || marks.contains c)
    if isGap (some c) || endsKey || endsItem then [] else c :: plainRun flow cs

/-- The text of line breaks after a first one: that one is dropped, or becomes a space where it stands
alone, unless it is one that stands for itself. -/
def folded (first breaks : String) : String :=
  if first != "\n" then first ++ breaks else if breaks.isEmpty then " " else breaks

/-- Reads spaces and line breaks up to the next document separator; the text is missing if there is
one. -/
def plainBreaks : Read (Option String) :=
  many (fun breaks => do
    skipSpaces
    match breaks with
    | none => return (none, false)
    | some text =>
      let br ← lineBreak
      if br.isEmpty then return (some text, false)
      else if (← get).atAnySeparator then return (none, false)
      else return (some (text ++ br), true)) (some "")

/-- Reads the white space after a word of a plain scalar: the text that it stands for, which is empty
if the scalar ends here, and whether there is a line break in it. -/
def plainSpace : Read (String × Bool) := do
  let spaces ← takeWhile (· = ' ')
  let first ← lineBreak
  if first.isEmpty then return (String.ofList spaces, false)
  else if (← get).atAnySeparator then return ("", true)
  else
    match ← plainBreaks with
    | none => return ("", true)
    | some breaks => return (folded first breaks, true)

/-- What has been read of a plain scalar: its text, the white space after it, and whether a line break
is in that. -/
structure PlainText where
  text   : String := ""
  space  : String := ""
  broken : Bool := false

/-- Reads a word of a plain scalar with the white space after it; outside flow collections a word
further left than the indentation does not belong to it. -/
def plainWord (flow : Bool) (indent : Int) (t : PlainText) : Read (PlainText × Bool) := do
  let run := plainRun flow (← get).rest
  if (← peek 0) = some '#' || run.isEmpty then return (t, false)
  else
    skip run.length
    let (space, broken) ← plainSpace
    let more := !space.isEmpty && (flow || indent ≤ (← get).column)
    return (⟨t.text ++ t.space ++ String.ofList run, space, broken⟩, more)

/-- Reads a plain scalar, and whether a line break follows it. -/
def plainScalar (flow : Bool) (indent : Int) : Read (String × Bool) := do
  let t ← many (plainWord flow indent) {}
  return (t.text, t.broken)

/-! ### Quoted scalars -/

/-- The character that a letter after a backslash stands for. -/
def escaped? : Char → Option Char
  | '0'  => some '\x00'
  | 'a'  => some '\x07'
  | 'b'  => some '\x08'
  | 't'  => some '\t'
  | '\t' => some '\t'
  | 'n'  => some '\n'
  | 'v'  => some '\x0b'
  | 'f'  => some '\x0c'
  | 'r'  => some '\r'
  | 'e'  => some '\x1b'
  | ' '  => some ' '
  | '"'  => some '"'
  | '\\' => some '\\'
  | '/'  => some '/'
  | 'N'  => some '\u0085'
  | '_'  => some '\u00a0'
  | 'L'  => some '\u2028'
  | 'P'  => some '\u2029'
  | _    => none

/-- The number of digits of an escape by code point. -/
def codeDigits? : Char → Option Nat
  | 'x' => some 2
  | 'u' => some 4
  | 'U' => some 8
  | _   => none

/-- The greatest code point. -/
def maxCodePoint : Nat := 0x10ffff

/-- The greatest number that is compared with code points at all. -/
def maxCode : Nat := 0x7fffffff

/-- The character of a code point, or the replacement character for a surrogate. -/
def codeChar (n : Nat) : Except Fault Char :=
  if maxCode < n then .error .outOfRange
  else if maxCodePoint < n then .error .badScalar
  else if h : n.isValidChar then .ok (Char.ofNatAux n h)
  else .ok '\ufffd'

/-- Reads line breaks and the white space before and after them. -/
def quotedBreaks : Read String :=
  many (fun text => do
    if (← get).atAnySeparator then refuse
    let _ ← takeWhile fun c => c = ' ' || c = '\t'
    let br ← lineBreak
    return (text ++ br, !br.isEmpty)) ""

/-- Reads an escape after its backslash. -/
def escape : Read String := do
  match ← peek 0 with
  | none => refuse
  | some c =>
    match escaped? c, codeDigits? c with
    | some x, _ =>
      skip 1
      return x.toString
    | none, some n =>
      skip 1
      let digits := (← get).rest.take n
      match digits.mapM Text.hexValue? with
      | some ds =>
        need (ds.length = n)
        skip n
        let x ← liftM (codeChar (ds.foldl (fun n d => 16 * n + d) 0))
        return x.toString
      | none => refuse
    | none, none =>
      need (isBreak c)
      let _ ← lineBreak
      quotedBreaks

/-- Reads the white space between the words of a quoted scalar. -/
def quotedSpace : Read String := do
  let spaces ← takeWhile fun c => c = ' ' || c = '\t'
  let first ← lineBreak
  if first.isEmpty then return String.ofList spaces else return folded first (← quotedBreaks)

/-- Reads a piece of a quoted scalar, and whether its closing quote has not been reached. -/
def quotedPiece (quote : Char) (text : String) : Read (String × Bool) := do
  match ← peek 0 with
  | none => refuse
  | some c =>
    if c = quote then
      if quote = '\'' && (← peek 1) = some '\'' then
        skip 2
        return (text ++ "'", true)
      else
        skip 1
        return (text, false)
    else if c = '\\' && quote = '"' then
      skip 1
      return (text ++ (← escape), true)
    else if isGap (some c) then return (text ++ (← quotedSpace), true)
    else
      let run ← takeWhile fun d => !(d = quote || d = '\\' && quote = '"' || isGap (some d))
      return (text ++ String.ofList run, true)

/-- Reads a scalar between quotes of the given kind. -/
def quotedScalar (quote : Char) : Read String := do
  skip 1
  many (quotedPiece quote) ""

/-! ### Block scalars -/

/-- What becomes of the line breaks after the last line of a block scalar. -/
inductive Chomping where
  | strip
  | clip
  | keep
  deriving DecidableEq

/-- The chomping that a mark asks for. -/
def chomping? : Option Char → Option Chomping
  | some '+' => some .keep
  | some '-' => some .strip
  | _        => none

/-- The indentation that a digit asks for. -/
def indentation? (c : Option Char) : Option Nat := c.bind (Text.digitValue? 10)

/-- Reads the header of a block scalar after its mark: at most one chomping mark and at most one digit
for the indentation, in either order. -/
def blockHeader : Read (Chomping × Option Nat) := do
  let first := chomping? (← peek 0)
  if first.isSome then skip 1
  let digit := indentation? (← peek 0)
  if digit.isSome then skip 1
  let next ← peek 0
  let last := if first.isNone && digit.isSome then chomping? next else none
  if last.isSome then skip 1
  need (digit != some 0)
  need (isSpaceOrEnd (← peek 0))
  commentLine
  return ((first <|> last).getD .clip, digit)

/-- Reads empty lines before the first line of a block scalar, with the widest of their indentations
and that of the first line. -/
def blockIndentation : Read (String × Nat) :=
  many (fun (breaks, widest) => do
    let spaces ← takeWhile (· = ' ')
    let column := (← get).column
    let br ← lineBreak
    let widest := if spaces.isEmpty then widest else max widest column
    return ((breaks ++ br, widest), !br.isEmpty)) ("", 0)

/-- Reads spaces up to a column. -/
def skipIndent (indent : Nat) : Read Unit := do
  let c ← get
  skip ((c.rest.take (indent - c.column)).takeWhile (· = ' ')).length

/-- Reads empty lines, and the indentation of the line after them. -/
def blockBreaks (indent : Nat) : Read String :=
  many (fun breaks => do
    skipIndent indent
    let br ← lineBreak
    return (breaks ++ br, !br.isEmpty)) ""

/-- What has been read of a block scalar: its text, the line break after that, and the empty lines
after the line break. -/
structure BlockText where
  text   : String := ""
  br     : String := ""
  breaks : String := ""

/-- Whether the cursor stands at a line of a block scalar. -/
def Cursor.atBlockLine (c : Cursor) (indent : Nat) : Bool := c.column = indent && !c.rest.isEmpty

/-- The text between two lines of a block scalar. -/
def betweenLines (fold : Bool) (br breaks : String) (before after : Option Char) : String :=
  let isWord (c : Option Char) : Bool := c.all fun c => c != ' ' && c != '\t'
  if fold && br = "\n" && isWord before && isWord after then
    (if breaks.isEmpty then " " else breaks)
  else br ++ breaks

/-- Reads a line of a block scalar. -/
def blockLine (fold : Bool) (indent : Nat) (t : BlockText) : Read (BlockText × Bool) := do
  let c ← get
  if !c.atBlockLine indent then return (t, false)
  else
    let line ← takeWhile (!isBreak ·)
    let br ← lineBreak
    let breaks ← blockBreaks indent
    let text := t.text ++ String.ofList line
    let d ← get
    if d.atBlockLine indent then
      return (⟨text ++ betweenLines fold br breaks (c.peek 0) (d.peek 0), br, ""⟩, true)
    else return (⟨text, br, breaks⟩, false)

/-- Reads a block scalar under a parent of the given indentation. -/
def blockScalar (fold : Bool) (parent : Int) : Read String := do
  skip 1
  let (chomping, digit) ← blockHeader
  let least := (max (parent + 1) 1).toNat
  let (breaks, indent) ← match digit with
    | none => do
      let (breaks, widest) ← blockIndentation
      pure (breaks, max least widest)
    | some n => do
      let indent := least + n - 1
      pure (← blockBreaks indent, indent)
  let started := (← get).atBlockLine indent
  let t ← many (blockLine fold indent)
    (if started then ⟨breaks, "", ""⟩ else ⟨"", "", breaks⟩)
  return match chomping with
    | .strip => t.text
    | .clip  => t.text ++ t.br
    | .keep  => t.text ++ t.br ++ t.breaks

end SampleSchema.Yaml
