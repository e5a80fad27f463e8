import SampleSchema.Yaml.Token
import SampleSchema.Yaml.Token.Scalar

/-!
# Reading tokens

Tokens are read from left to right. Only the colon after a key shows that it is a key, so the place
of a possible key is kept until its line ends or the colon follows, and then the mark for the key is
put in front of it. A token that starts further right than the block collection around it may open a
collection, and one further left closes those that started to the right of it.

* `tokens` are the tokens of a text. They end with the end of the stream or with a fault.
-/

namespace SampleSchema.Yaml

/-- A token that may turn out to start a key: its index and its place, and whether it has to. -/
structure PossibleKey where
  token    : Nat
  required : Bool
  left     : Nat
  line     : Nat
  column   : Nat

/-- The most characters that a key without a question mark may have. -/
def maxKeyLength : Nat := 1024

/-- A reading of tokens. The possible keys are those of the flow collections around the place, the
innermost first, and at last that of the block context. -/
structure Scanner where
  cursor     : Cursor
  tokens     : Array Token := #[]
  /-- The column of the block collection around the place. -/
  indent     : Int := -1
  /-- The columns of the block collections around that one. -/
  indents    : List Int := []
  keyAllowed : Bool := true
  keys       : List (Option PossibleKey) := [none]

/-- A step of a reading of tokens. -/
abbrev Scan := StateT Scanner (Except Fault)

namespace Scan

/-- Reads from the text. -/
def reading {α : Type} (r : Read α) : Scan α := fun s => do
  let (a, c) ← r s.cursor
  return (a, { s with cursor := c })

/-- Whether the place is inside a flow collection. -/
def inFlow : Scan Bool := do return 1 < (← get).keys.length

/-- The column of the place. -/
def column : Scan Int := do return (← get).cursor.column

/-- Adds a token. -/
def emit (t : Token) : Scan Unit := modify fun s => { s with tokens := s.tokens.push t }

/-- Says whether a key may start at the next token. -/
def allowKey (allowed : Bool) : Scan Unit := modify fun s => { s with keyAllowed := allowed }

/-- Closes the block collections to the right of a column. -/
def closeBlocks (column : Int) : List Int → Scan Unit
  | [] => return ()
  | outer :: rest => do
    if column < (← get).indent then
      emit .blockEnd
      modify fun s => { s with indent := outer, indents := rest }
      closeBlocks column rest

/-- Closes the block collections to the right of a column, unless the place is in a flow collection,
where columns mean nothing. -/
def unwind (column : Int) : Scan Unit := do
  if !(← inFlow) then closeBlocks column (← get).indents

/-- Opens a block collection at a column, if that is further right than the one around it. -/
def openBlock (column : Int) : Scan Bool := do
  let s ← get
  if s.indent < column then
    set { s with indent := column, indents := s.indent :: s.indents }
    return true
  else return false

/-- Gives up a possible key; one that is required is a fault. -/
def giveUp (key : Option PossibleKey) : Scan Unit := do
  if key.any (·.required) then throw .malformed

/-- Gives up the possible key of the collection around the place. -/
def removeKey : Scan Unit := do
  let s ← get
  match s.keys with
  | [] => return ()
  | key :: keys =>
    giveUp key
    set { s with keys := none :: keys }

/-- Gives up all possible keys on earlier lines or too far back. -/
def dropStaleKeys : Scan Unit := do
  let s ← get
  let isStale (k : PossibleKey) : Bool :=
    k.line != s.cursor.line || maxKeyLength < k.left - s.cursor.left
  s.keys.forM fun key : Option PossibleKey => giveUp (key.filter isStale)
  set { s with keys := s.keys.map (Option.filter (!isStale ·)) }

/-- Notes that the next token may start a key. -/
def saveKey : Scan Unit := do
  let s ← get
  if s.keyAllowed then
    removeKey
    let required := !(← inFlow) && s.indent = s.cursor.column
    let key : PossibleKey :=
      ⟨s.tokens.size, required, s.cursor.left, s.cursor.line, s.cursor.column⟩
    set { s with keys := some key :: s.keys.drop 1 }

/-- Reads white space, comments and line breaks. -/
def skipToToken : Scan Unit := do
  let flow ← inFlow
  let broken ← reading (many (fun broken => do
    skipSpaces
    if (← peek 0) = some '#' then let _ ← takeWhile (!isBreak ·)
    let br ← lineBreak
    return (broken || !br.isEmpty, !br.isEmpty)) false)
  if broken && !flow then allowKey true

/-- Reads a mark of some characters. -/
def mark (length : Nat) (t : Token) : Scan Unit := do
  reading (skip length)
  emit t

/-- Reads a directive. -/
def directiveLine : Scan Unit := do
  unwind (-1)
  removeKey
  allowKey false
  emit (.directive (← reading directive))

/-- Reads a document separator. -/
def separator (t : Token) : Scan Unit := do
  unwind (-1)
  removeKey
  allowKey false
  mark 3 t

/-- Reads the start of a flow collection. -/
def flowStart (t : Token) : Scan Unit := do
  saveKey
  modify fun s => { s with keys := none :: s.keys }
  allowKey true
  mark 1 t

/-- Reads the end of a flow collection. -/
def flowEnd (t : Token) : Scan Unit := do
  removeKey
  modify fun s => { s with keys := if s.keys.length ≤ 1 then [none] else s.keys.drop 1 }
  allowKey false
  mark 1 t

/-- Reads the comma between the entries of a flow collection. -/
def flowSeparator : Scan Unit := do
  allowKey true
  removeKey
  mark 1 .flowEntry

/-- Opens a block collection where the place may start one; inside flow collections there is none. -/
def openBlockAt (column : Int) (t : Token) : Scan Unit := do
  if !(← inFlow) then
    if !(← get).keyAllowed then throw .malformed
    if ← openBlock column then emit t

/-- Reads the dash before an entry of a block sequence. -/
def dash : Scan Unit := do
  openBlockAt (← column) .blockSequenceStart
  allowKey true
  removeKey
  mark 1 .blockEntry

/-- Reads the question mark before a key. -/
def questionMark : Scan Unit := do
  openBlockAt (← column) .blockMappingStart
  allowKey !(← inFlow)
  removeKey
  mark 1 .key

/-- Puts a token in front of the token of an index. -/
def insertToken (index : Nat) (t : Token) : Scan Unit :=
  modify fun s => { s with tokens := s.tokens.insertIdxIfInBounds index t }

/-- Reads the colon before a value. It makes a key of the possible key before it. -/
def colon : Scan Unit := do
  let s ← get
  match s.keys.head?.join with
  | some key =>
    set { s with keys := none :: s.keys.drop 1 }
    insertToken key.token .key
    if !(← inFlow) then
      if ← openBlock key.column then insertToken key.token .blockMappingStart
    allowKey false
  | none =>
    openBlockAt (← column) .blockMappingStart
    allowKey !(← inFlow)
    removeKey
  mark 1 .value

/-- Reads a token that may start a key. -/
def keyPart (r : Read Token) : Scan Unit := do
  saveKey
  allowKey false
  emit (← reading r)

/-- Reads a plain scalar. -/
def plain : Scan Unit := do
  saveKey
  let (text, broken) ← reading (plainScalar (← inFlow) ((← get).indent + 1))
  allowKey broken
  emit (.scalar text true)

/-- Reads a block scalar. -/
def block (fold : Bool) : Scan Unit := do
  allowKey true
  removeKey
  emit (.scalar (← reading (blockScalar fold (← get).indent)) false)

/-- Ends the reading at the end of the text. -/
def finish : Scan Unit := do
  unwind (-1)
  removeKey
  emit .streamEnd

/-- Reads the token that starts with a character, which is the next one of the text. -/
def tokenAt (c : Char) : Scan Unit := do
  let flow ← inFlow
  let s ← get
  let next := s.cursor.peek 1
  let inFirstColumn := s.cursor.column = 0
  if c = '%' && inFirstColumn then directiveLine
  else if inFirstColumn && s.cursor.atSeparator '-' then separator .documentStart
  else if inFirstColumn && s.cursor.atSeparator '.' then separator .documentEnd
  else if c = '[' then flowStart .flowSequenceStart
  else if c = '\x7b' then flowStart .flowMappingStart
  else if c = ']' then flowEnd .flowSequenceEnd
  else if c = '\x7d' then flowEnd .flowMappingEnd
  else if c = ',' then flowSeparator
  else if c = '-' && isGap next then dash
  else if c = '?' && (flow || isGap next) then questionMark
  else if c = ':' && (flow || isGap next) then colon
  else if c = '*' then keyPart do return .alias (← anchorName)
  else if c = '&' then keyPart do return .anchor (← anchorName)
  else if c = '!' then keyPart do
    let (handle, suffix) ← tag
    return .tag handle suffix
  else if c = '|' && !flow then block false
  else if c = '>' && !flow then block true
  else if c = '\'' || c = '"' then keyPart do return .scalar (← quotedScalar c) false
  else if isGap (some c) || "#|>%@\x60".toList.contains c then throw .malformed
  else plain

/-- Reads the next token, and whether more tokens follow. -/
def nextToken : Scan Bool := do
  skipToToken
  dropStaleKeys
  unwind (← column)
  match (← get).cursor.peek 0 with
  | none =>
    finish
    return false
  | some c =>
    tokenAt c
    dropStaleKeys
    return true

end Scan

/-- How many tokens are settled: the marks for a key may still be put in front of a possible key. -/
def Scanner.settled (s : Scanner) : Nat :=
  (s.keys.filterMap id).foldl (fun n key => min n key.token) s.tokens.size

/-- The tokens from the place of a reading on, after those read before. A fault comes after the tokens
that are settled. -/
def Scanner.run (s : Scanner) : Array Token :=
  match Scan.nextToken s with
  | .error reason => (s.tokens.take s.settled).push (.fault reason)
  | .ok (more, t) =>
    if more && t.cursor.left < s.cursor.left then t.run else t.tokens
termination_by s.cursor.left
decreasing_by simp_all

/-- Whether a character may stand in a YAML text. -/
def isAllowed (c : Char) : Bool :=
  c = '\t' || c = '\n' || c = '\r' || c = '\u0085' || ' ' ≤ c && c ≤ '~' ||
    '\u00a0' ≤ c && c ≤ '\ufffd' || 0x10000 ≤ c.toNat

/-- The tokens of a text. A byte order mark at its start does not count. -/
def tokens (s : String) : List Token :=
  if !s.toList.all isAllowed then [.fault .malformed]
  else
    let start := Cursor.start s
    let start := if start.peek 0 = some '\ufeff' then start.next else start
    (Scanner.run { cursor := start }).toList

end SampleSchema.Yaml
