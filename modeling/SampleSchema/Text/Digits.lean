/-!
# Written numbers

Natural numbers as digits of a fixed least width, and the values of hexadecimal digits.
-/

namespace SampleSchema.Text

/-- A text padded with zeros on the left to a least width. -/
def padLeft (width : Nat) (s : String) : String :=
  String.ofList (List.replicate (width - s.length) '0') ++ s

/-- A number in decimal, with at least `width` digits. -/
def decimal (width n : Nat) : String := padLeft width (Nat.repr n)

/-- A number in lower-case hexadecimal, with at least `width` digits. -/
def hex (width n : Nat) : String := padLeft width (String.ofList (Nat.toDigits 16 n))

/-- The value of a hexadecimal digit. -/
def hexValue? (c : Char) : Option Nat :=
  let n := c.toNat
  if '0'.toNat ≤ n ∧ n ≤ '9'.toNat then some (n - '0'.toNat)
  else if 'a'.toNat ≤ n ∧ n ≤ 'f'.toNat then some (n - 'a'.toNat + 10)
  else if 'A'.toNat ≤ n ∧ n ≤ 'F'.toNat then some (n - 'A'.toNat + 10)
  else none

/-- The value of an ASCII digit in a base of at most sixteen. -/
def digitValue? (base : Nat) (c : Char) : Option Nat := (hexValue? c).filter (· < base)

/-- A digit has a value below its base. -/
theorem digitValue?_lt {base d : Nat} {c : Char} (h : digitValue? base c = some d) : d < base := by
  simpa using (Option.filter_eq_some_iff.1 h).2

end SampleSchema.Text
