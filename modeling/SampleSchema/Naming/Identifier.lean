import SampleSchema.Timestamp

/-!
# Names of types

A type is named by an identifier of ASCII letters and digits in which every word starts with a
capital. `typeName` makes one out of any text, and `singular` gives the last word of a name its
singular form.

* `typeName_ne_empty`: a name is never empty.
-/

namespace SampleSchema

/-- The letters and digits of a text with the first of every run in upper case; `first` says whether
the next one starts a run. -/
def joinWords (first : Bool) : List Char → List Char
  | []      => []
  | c :: cs =>
    if c.isAlphanum then (if first then c.toUpper else c) :: joinWords false cs
    else joinWords true cs

/-- The name that stands for a text without letters and digits, and in front of a digit. -/
def fieldWord : List Char := "Field".toList

/-- The name of a type for a field or a root of the given name. -/
def typeName (s : String) : String :=
  String.ofList <|
    match joinWords true s.toList with
    | []      => fieldWord
    | c :: cs => if c.isDigit then fieldWord ++ c :: cs else c :: cs

/-- A name is never empty. -/
theorem typeName_ne_empty (s : String) : (typeName s).toList ≠ [] := by
  unfold typeName
  split
  · simp [fieldWord]
  · split <;> simp

/-- Whether a word ends in one of the given endings, in any case. -/
def endsInAny (word : List Char) (endings : List String) : Bool :=
  endings.any fun e => e.toList.isSuffixOf (word.map Char.toLower)

/-- The singular of a word. -/
def singularWord (word : List Char) : List Char :=
  if word.length ≤ 3 then word
  else if endsInAny word ["ies"] then word.dropLast.dropLast.dropLast ++ ['y']
  else if endsInAny word ["sses", "shes", "ches", "uses", "xes", "zes"] then word.dropLast.dropLast
  else if endsInAny word ["ss", "us", "is"] then word
  else if endsInAny word ["s"] then word.dropLast
  else word

/-- What stands before the last word, and the last word: small letters at the end of a text with the
capital before them. -/
def splitLastWord (cs : List Char) : List Char × List Char :=
  let small := (cs.reverse.takeWhile Char.isLower).reverse
  let before := (cs.reverse.dropWhile Char.isLower).reverse
  match small, before.getLast? with
  | [], _ => (cs, [])
  | _, some c => if c.isUpper then (before.dropLast, c :: small) else (before, small)
  | _, none => (before, small)

/-- The name with its last word in the singular. A text that does not end in a small letter, not
counting one line feed at the end, is unchanged. -/
def singular (s : String) : String :=
  match splitLastWord (withoutFinalNewline s.toList) with
  | (_, [])      => s
  | (head, word) => String.ofList (head ++ singularWord word)

end SampleSchema
