import SampleSchema.Datum
import SampleSchema.Malformed
import SampleSchema.Number.Literal

/-!
# Reading JSON

One value of JSON, with the words `NaN`, `Infinity` and `-Infinity` among the numbers. A number with
neither fraction nor exponent is an integer. When a name occurs twice in an object, the first
occurrence keeps its place and the last one gives the value. An escaped surrogate without its partner
has no character of its own and is read as the replacement character. Arrays and objects may be nested
up to a limit, and a bracket that opens one more level is a fault.

Every reading function returns the characters that it leaves, with a proof that there are fewer than
it was given; a fault carries the characters from the place that it concerns.
-/

namespace SampleSchema.JsonText

/-- A reason why a text cannot be read. -/
inductive Fault where
  /-- A problem before the given rest of the text. -/
  | malformed (problem : JsonProblem) (rest : List Char)
  /-- An integer with more digits than an integer may have. -/
  | longInteger
  /-- More levels of arrays and objects than there is room for. -/
  | tooDeep

/-- A value and the rest of a text, which is no longer than another text. -/
abbrev Upto (α : Type) (limit : List Char) :=
  Except Fault { r : α × List Char // r.2.length ≤ limit.length }

/-- A value and the rest of a text, which is shorter than another text. -/
abbrev Below (α : Type) (limit : List Char) :=
  Except Fault { r : α × List Char // r.2.length < limit.length }

/-- White space between the parts of a text. -/
def isSpace (c : Char) : Bool := c = ' ' || c = '\t' || c = '\n' || c = '\r'

/-- The text after its leading white space. -/
def skipSpace : List Char → List Char
  | []      => []
  | c :: cs => if isSpace c then skipSpace cs else c :: cs

/-- Skipping white space leaves no more than there was. -/
theorem length_skipSpace_le : ∀ cs : List Char, (skipSpace cs).length ≤ cs.length
  | []      => Nat.le_refl _
  | c :: cs => by
      have := length_skipSpace_le cs
      unfold skipSpace; split
      · simp only [List.length_cons]; omega
      · exact Nat.le_refl _

/-- What follows a first character is shorter than what there was. -/
theorem length_tail_lt {c : Char} : ∀ {cs : List Char}, cs.head? = some c →
    cs.tail.length < cs.length
  | [], h     => nomatch h
  | _ :: _, _ => Nat.lt_succ_self _

/-- What follows a character after white space is shorter than what there was. -/
theorem length_tail_lt_of_skipSpace {c : Char} {cs : List Char}
    (h : (skipSpace cs).head? = some c) : (skipSpace cs).tail.length < cs.length :=
  Nat.lt_of_lt_of_le (length_tail_lt h) (length_skipSpace_le cs)

/-- The number that four hexadecimal digits write. -/
def unit? (a b c d : Char) : Option Nat := do
  return (((← Text.hexValue? a) * 16 + (← Text.hexValue? b)) * 16 + (← Text.hexValue? c)) * 16 +
    (← Text.hexValue? d)

/-- Whether a number is the first half of a surrogate pair. -/
def isHighSurrogate (n : Nat) : Bool := 0xd800 ≤ n && n < 0xdc00

/-- Whether a number is the second half of a surrogate pair. -/
def isLowSurrogate (n : Nat) : Bool := 0xdc00 ≤ n && n < 0xe000

/-- The character of a number between 0 and U+FFFF. -/
def unitChar (n : Nat) : Char :=
  if isHighSurrogate n || isLowSurrogate n then '\ufffd' else Char.ofNat n

/-- The character of a surrogate pair. -/
def pairChar (high low : Nat) : Char :=
  Char.ofNat (0x10000 + (high - 0xd800) * 0x400 + (low - 0xdc00))

/-- The character that a letter after a backslash stands for. -/
def escaped? : Char → Option Char
  | '"'  => some '"'
  | '\\' => some '\\'
  | '/'  => some '/'
  | 'b'  => some '\x08'
  | 'f'  => some '\x0c'
  | 'n'  => some '\n'
  | 'r'  => some '\r'
  | 't'  => some '\t'
  | _    => none

/-- A surrogate pair leaves less than there was after its first half. -/
theorem length_after_pair_le (p q r s t : Char) (after : List Char) :
    (t :: after).length ≤ ('\\' :: 'u' :: p :: q :: r :: s :: t :: after).length := by
  simp only [List.length_cons]; omega

/-- The character that an escaped number writes, where `rest` follows. The first half of a surrogate
pair takes an escaped second half with it. -/
def escapedUnit (first : Nat) (rest : List Char) : Upto Char rest :=
  match rest with
  | '\\' :: 'u' :: p :: q :: r :: s :: t :: after =>
    if isHighSurrogate first then
      match unit? p q r s with
      | none => .error (.malformed .invalidUnicodeEscape ('u' :: p :: q :: r :: s :: t :: after))
      | some second =>
        if isLowSurrogate second then
          .ok ⟨(pairChar first second, t :: after), length_after_pair_le p q r s t after⟩
        else .ok ⟨(unitChar first, '\\' :: 'u' :: p :: q :: r :: s :: t :: after), Nat.le_refl _⟩
    else .ok ⟨(unitChar first, '\\' :: 'u' :: p :: q :: r :: s :: t :: after), Nat.le_refl _⟩
  | rest => .ok ⟨(unitChar first, rest), Nat.le_refl _⟩

/-- The next character inside a text, which may be escaped; `start` is the input from the opening quote
on. -/
def character (start cs : List Char) : Below Char cs :=
  match cs with
  | [] => .error (.malformed .unterminatedString start)
  | '\\' :: 'u' :: a :: b :: c :: d :: e :: rest =>
    match unit? a b c d with
    | none => .error (.malformed .invalidUnicodeEscape ('u' :: a :: b :: c :: d :: e :: rest))
    | some first =>
      match escapedUnit first (e :: rest) with
      | .error fault => .error fault
      | .ok ⟨r, h⟩ => .ok ⟨r, by simp only [List.length_cons] at h ⊢; omega⟩
  | '\\' :: 'u' :: rest => .error (.malformed .invalidUnicodeEscape ('u' :: rest))
  | ['\\'] => .error (.malformed .unterminatedString start)
  | '\\' :: c :: rest =>
    match escaped? c with
    | some e => .ok ⟨(e, rest), by simp only [List.length_cons]; omega⟩
    | none => .error (.malformed .invalidEscape ('\\' :: c :: rest))
  | c :: rest =>
    if c.toNat < 0x20 then .error (.malformed .controlCharacter (c :: rest))
    else .ok ⟨(c, rest), by simp only [List.length_cons]; omega⟩

/-- The characters of a text up to its closing quote; `done` are those before, reversed, and `start`
is the input from the opening quote on. -/
def stringBody (limit start done cs : List Char) (bound : cs.length ≤ limit.length) :
    Upto String limit :=
  if cs.head? = some '"' then
    .ok ⟨(String.ofList done.reverse, cs.tail), by simp only [List.length_tail]; omega⟩
  else
    match character start cs with
    | .error fault => .error fault
    | .ok ⟨r, h⟩ => stringBody limit start (r.1 :: done) r.2 (Nat.le_trans (Nat.le_of_lt h) bound)
termination_by cs.length

/-- The words that are values. -/
def words : List (String × Datum) :=
  [("null", .null), ("true", .bool true), ("false", .bool false), ("NaN", .float Double.nan),
   ("Infinity", .float (Double.infinity false)), ("-Infinity", .float (Double.infinity true))]

/-- The word at the start of a text that is a value, and its length. -/
def word? (cs : List Char) : Option (Datum × Nat) :=
  words.findSome? fun w => if w.1.toList.isPrefixOf cs then some (w.2, w.1.length) else none

/-- The number that ASCII digits write. -/
def digitsValue (ds : List Char) : Nat := Text.ofDigits (ds.filterMap (Text.digitValue? 10))

/-- The fraction at the start of a text: its digits, of which there is at least one. -/
def fractionDigits : List Char → List Char
  | '.' :: cs => cs.takeWhile Char.isDigit
  | _         => []

/-- The exponent at the start of a text, and the number of characters that it takes. -/
def exponent? : List Char → Option (Int × Nat)
  | e :: cs =>
    if e = 'e' ∨ e = 'E' then
      let signed := cs.head? = some '-' || cs.head? = some '+'
      let ds := (if signed then cs.tail else cs).takeWhile Char.isDigit
      let n : Int := digitsValue ds
      if ds.isEmpty then none
      else some (if cs.head? = some '-' then -n else n, (if signed then 2 else 1) + ds.length)
    else none
  | [] => none

/-- The digits of the whole part of a number: a single zero, or digits that start with no zero. -/
def wholeDigits : List Char → List Char
  | '0' :: _ => ['0']
  | cs       => cs.takeWhile Char.isDigit

/-- The number at the start of a text, and the number of characters that it takes. -/
def number? (cs : List Char) : Option (Except Fault Datum × Nat) :=
  let negative := cs.head? = some '-'
  let unsigned := if negative then cs.drop 1 else cs
  let whole := wholeDigits unsigned
  let part := fractionDigits (unsigned.drop whole.length)
  let partLength := if part.isEmpty then 0 else part.length + 1
  let length := (if negative then 1 else 0) + whole.length + partLength
  let double (e : Int) : Datum :=
    .float (Double.ofDecimal negative (digitsValue (whole ++ part)) (e - part.length))
  if whole.isEmpty then none
  else
    match exponent? (cs.drop length) with
    | some (e, taken) => some (.ok (double e), length + taken)
    | none =>
      if !part.isEmpty then some (.ok (double 0), length)
      else if Literal.maxDigits < whole.length then some (.error .longInteger, length)
      else
        let n : Int := digitsValue whole
        some (.ok (.int (if negative then -n else n)), length)

/-- Characters taken from a text that has some leave less of it. -/
theorem length_drop_lt {cs : List Char} {n : Nat} (h : 0 < n ∧ cs ≠ []) :
    (cs.drop n).length < cs.length := by
  have := List.length_pos_iff.2 h.2
  rw [List.length_drop]; omega

/-- The value at the start of a text that is a word or a number. -/
def scalar (cs : List Char) : Below Datum cs :=
  match ((word? cs).map fun w => (.ok w.1, w.2)) <|> number? cs with
  | some (.ok d, n) =>
    if h : 0 < n ∧ cs ≠ [] then .ok ⟨(d, cs.drop n), length_drop_lt h⟩
    else .error (.malformed .expectedValue cs)
  | some (.error fault, _) => .error fault
  | none => .error (.malformed .expectedValue cs)

mutual

/-- The value at the start of a text, with at most `levels` levels of arrays and objects. -/
def value (levels : Nat) (cs : List Char) : Below Datum cs :=
  let inside := skipSpace cs.tail
  if hc : cs.head? = some '"' then do
    let r ← stringBody cs.tail cs [] cs.tail (Nat.le_refl _)
    return ⟨(.string r.val.1, r.val.2), Nat.lt_of_le_of_lt r.property (length_tail_lt hc)⟩
  else if hc : cs.head? = some '[' then
    match levels with
    | 0 => .error .tooDeep
    | levels + 1 =>
      if he : inside.head? = some ']' then
        .ok ⟨(.list [], inside.tail),
          Nat.lt_trans (length_tail_lt_of_skipSpace he) (length_tail_lt hc)⟩
      else do
        let r ← items levels cs.tail [] inside (length_skipSpace_le cs.tail)
        return ⟨(.list r.val.1, r.val.2), Nat.lt_of_le_of_lt r.property (length_tail_lt hc)⟩
  else if hc : cs.head? = some '\x7b' then
    match levels with
    | 0 => .error .tooDeep
    | levels + 1 =>
      if he : inside.head? = some '\x7d' then
        .ok ⟨(.map [], inside.tail),
          Nat.lt_trans (length_tail_lt_of_skipSpace he) (length_tail_lt hc)⟩
      else do
        let r ← members levels cs.tail [] inside (length_skipSpace_le cs.tail)
        return ⟨(.map r.val.1, r.val.2), Nat.lt_of_le_of_lt r.property (length_tail_lt hc)⟩
  else scalar cs
termination_by (cs.length, 0)
decreasing_by all_goals
  exact Prod.Lex.left _ _ (Nat.lt_of_le_of_lt (length_skipSpace_le cs.tail) (length_tail_lt hc))

/-- The items of an array up to its closing bracket; `done` are those before, reversed. -/
def items (levels : Nat) (limit : List Char) (done : List Datum) (cs : List Char)
    (bound : cs.length ≤ limit.length) : Upto (List Datum) limit := do
  let r ← value levels cs
  let after := skipSpace r.val.2
  if hc : after.head? = some ']' then
    return ⟨((r.val.1 :: done).reverse, after.tail),
      Nat.le_trans (Nat.le_of_lt (Nat.lt_trans (length_tail_lt_of_skipSpace hc) r.property)) bound⟩
  else if hc : after.head? = some ',' then
    have shorter : (skipSpace after.tail).length < cs.length :=
      Nat.lt_of_le_of_lt (length_skipSpace_le after.tail)
        (Nat.lt_trans (length_tail_lt_of_skipSpace hc) r.property)
    items levels limit (r.val.1 :: done) (skipSpace after.tail)
      (Nat.le_trans (Nat.le_of_lt shorter) bound)
  else .error (.malformed .expectedComma after)
termination_by (cs.length, 1)
decreasing_by
  · exact Prod.Lex.right _ Nat.zero_lt_one
  · exact Prod.Lex.left _ _ shorter

/-- The members of an object up to its closing brace; `done` are the entries before. -/
def members (levels : Nat) (limit : List Char) (done : List (Datum × Datum)) (cs : List Char)
    (bound : cs.length ≤ limit.length) : Upto (List (Datum × Datum)) limit :=
  if hq : cs.head? = some '"' then do
    let name ← stringBody cs.tail cs [] cs.tail (Nat.le_refl _)
    let after := skipSpace name.val.2
    if hc : after.head? = some ':' then
      have shorter : (skipSpace after.tail).length < cs.length :=
        Nat.lt_of_le_of_lt (length_skipSpace_le after.tail)
          (Nat.lt_of_lt_of_le (length_tail_lt_of_skipSpace hc)
            (Nat.le_trans name.property (Nat.le_of_lt (length_tail_lt hq))))
      let r ← value levels (skipSpace after.tail)
      let entries := Datum.insert (.string name.val.1) r.val.1 done
      let after := skipSpace r.val.2
      if hc : after.head? = some '\x7d' then
        return ⟨(entries, after.tail), Nat.le_trans (Nat.le_of_lt
          (Nat.lt_trans (Nat.lt_trans (length_tail_lt_of_skipSpace hc) r.property) shorter)) bound⟩
      else if hc : after.head? = some ',' then
        have shorter : (skipSpace after.tail).length < cs.length :=
          Nat.lt_of_le_of_lt (length_skipSpace_le after.tail)
            (Nat.lt_trans (Nat.lt_trans (length_tail_lt_of_skipSpace hc) r.property) shorter)
        members levels limit entries (skipSpace after.tail)
          (Nat.le_trans (Nat.le_of_lt shorter) bound)
      else .error (.malformed .expectedComma after)
    else .error (.malformed .expectedColon after)
  else .error (.malformed .expectedName cs)
termination_by (cs.length, 1)
decreasing_by
  · exact Prod.Lex.left _ _ shorter
  · exact Prod.Lex.left _ _ shorter

end

/-- The value that a whole text writes, with at most `levels` levels of arrays and objects. -/
def read (levels : Nat) (s : String) : Except Fault Datum := do
  let cs := s.toList
  if cs.head? = some '\ufeff' then throw (.malformed .byteOrderMark cs)
  let ⟨(d, after), _⟩ ← value levels (skipSpace cs)
  match skipSpace after with
  | []   => return d
  | rest => throw (.malformed .extraData rest)

/-- The number of characters of a text before a rest of it. -/
def offset (s : String) (rest : List Char) : Nat := s.length - rest.length

/-- The position in a text where a rest of it starts. -/
def position (s : String) (rest : List Char) : Text.Position :=
  Text.Position.after (s.toList.take (offset s rest))

end SampleSchema.JsonText
