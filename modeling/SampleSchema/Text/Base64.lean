/-!
# Base 64

Bytes written in groups of four characters of six bits each. Characters outside the alphabet do not
count, and a group of two or three characters has to be filled up with equals signs, after which
nothing counts.
-/

namespace SampleSchema.Text

/-- The six bits of a character of the alphabet. -/
def base64Value? (c : Char) : Option Nat :=
  let n := c.toNat
  if c.isUpper then some (n - 'A'.toNat)
  else if c.isLower then some (n - 'a'.toNat + 26)
  else if c.isDigit then some (n - '0'.toNat + 52)
  else if c = '+' then some 62
  else if c = '/' then some 63
  else none

/-- The whole bytes of a group of at most four values of six bits. -/
def groupBytes (group : List Nat) : List UInt8 :=
  let bits := group.foldl (fun n v => 64 * n + v) 0 * Nat.pow 64 (4 - group.length)
  ([bits / 0x10000, bits / 0x100 % 0x100, bits % 0x100].take (group.length - 1)).map UInt8.ofNat

/-- The bytes that a text writes after a group that has been started, where `pads` equals signs have
followed its last character. -/
def decodeBase64From (group : List Nat) (pads : Nat) : List Char → Option (List UInt8)
  | [] => if group.isEmpty then some [] else none
  | c :: cs =>
    if c = '=' then
      if 2 ≤ group.length then
        if 4 ≤ group.length + pads + 1 then some (groupBytes group)
        else decodeBase64From group (pads + 1) cs
      else decodeBase64From group pads cs
    else match base64Value? c with
      | none => decodeBase64From group pads cs
      | some v =>
        if group.length = 3 then
          (decodeBase64From [] 0 cs).map (groupBytes (group ++ [v]) ++ ·)
        else decodeBase64From (group ++ [v]) 0 cs

/-- The bytes that a text writes. -/
def decodeBase64 (cs : List Char) : Option (List UInt8) := decodeBase64From [] 0 cs

end SampleSchema.Text
