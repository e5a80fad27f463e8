import SampleSchema.Text.Blank
import SampleSchema.Text.DecimalDigit
import SampleSchema.Text.Digits
import SampleSchema.Number.Literal
import SampleSchema.Service.Framework
import SampleSchema.Validation

/-!
# Addresses

The address of a request: a path, and after a question mark names with their values. In both, a
percent sign and two digits write a byte. Of several values of one name the last one counts.

* `Route.ofPath?` is what a path leads to; slashes at its end do not count.
-/

namespace SampleSchema

open Text

namespace Address

/-- The bytes that characters write, where a percent sign with two digits writes a byte. -/
def decodedBytes : List Char → List UInt8
  | [] => []
  | '%' :: a :: b :: cs =>
    match hexValue? a, hexValue? b with
    | some x, some y => UInt8.ofNat (16 * x + y) :: decodedBytes cs
    | _, _ => 0x25 :: decodedBytes (a :: b :: cs)
  | c :: cs => String.utf8EncodeChar c ++ decodedBytes cs

/-- The text that characters write; bytes that are no text become the replacement character. -/
@[irreducible]
def decoded (cs : List Char) : String :=
  (String.fromUTF8? (decodedBytes cs).toByteArray).getD "\ufffd"

/-- A text up to a character, and after it. -/
def cut (mark : Char) (cs : List Char) : List Char × List Char :=
  (cs.takeWhile (· != mark), (cs.dropWhile (· != mark)).drop 1)

/-- The path of an address. -/
def path (address : String) : String :=
  decoded (cut '?' (cut '#' address.toList).1).1

/-- A name or a value of a query, where a plus sign stands for a space. -/
def queryText (cs : List Char) : String := decoded (cs.map fun c => if c = '+' then ' ' else c)

/-- The parts of a text between the places where a character stands. -/
def parts (mark : Char) (cs : List Char) : List (List Char) :=
  cs.foldr (fun c ps => if c = mark then [] :: ps else match ps with
    | p :: ps => (c :: p) :: ps
    | [] => [[c]]) [[]]

/-- The names and values of an address. -/
def query (address : String) : List (String × String) :=
  let pairs := (parts '&' (cut '?' (cut '#' address.toList).1).2).filter (!·.isEmpty)
  pairs.map fun p => (queryText (cut '=' p).1, queryText (cut '=' p).2)

/-- The value of a name in the query of an address. -/
def value? (address name : String) : Option String := (query address).reverse.lookup name

/-- Whether a character may surround a number. -/
def isSpace (c : Char) : Bool := isBlank c && !(0x1c ≤ c.toNat && c.toNat ≤ 0x1f)

/-- The integer that a text writes. A point with zeros after it does not count. -/
def integer (s : String) : Except Rule Int :=
  let cs := ((s.toList.dropWhile isSpace).reverse.dropWhile isSpace).reverse
  let (negative, ds) := Literal.sign cs
  let (whole, rest) := Literal.leadingDigits 10 ds
  let isWhole := match rest with
    | [] => true
    | '.' :: zeros => zeros.all (· = '0')
    | _ => false
  if whole.isEmpty || !isWhole then .error .notAnInteger
  else if Service.maxNumberDigits < cs.length then .error .integerTooLong
  else .ok (if negative then -(ofDigits whole : Int) else ofDigits whole)

/-- The number that a text writes, within bounds. -/
def integerWithin (least : Nat) (greatest : Option Nat) (s : String) : Except Rule Nat := do
  let n ← integer s
  if n < least then throw .tooSmall
  if greatest.any fun (g : Nat) => g < n then throw .tooLarge
  return n.toNat

end Address

/-- What paths lead to. -/
inductive Route where
  | infer
  | runs
  /-- One run, by its number as it is written. -/
  | run (number : String)
  | health
  deriving DecidableEq, Repr

namespace Route

/-- What a path leads to as it is. -/
def ofExactPath? (path : String) : Option Route :=
  match Address.parts '/' path.toList with
  | [[], segment] => if segment = "health".toList then some .health else none
  | [[], area, segment] =>
    if area != "schema".toList then none
    else if segment = "infer".toList then some .infer
    else if segment = "runs".toList then some .runs
    else none
  | [[], area, segment, number] =>
    if area = "schema".toList && segment = "runs".toList && !number.isEmpty then
      some (.run (String.ofList number))
    else none
  | _ => none

/-- A path without the slashes at its end. -/
def withoutSlashes (path : String) : String :=
  String.ofList (path.toList.reverse.dropWhile (· = '/')).reverse

/-- What a path leads to. -/
def ofPath? (path : String) : Option Route :=
  ofExactPath? path <|> ofExactPath? (withoutSlashes path)

/-- The method that a route answers to. -/
def method : Route → String
  | .infer => "POST"
  | .runs | .run _ | .health => "GET"

end Route

end SampleSchema
