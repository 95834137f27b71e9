/-!
# Bytes as text in base 64

Three bytes are written as four of sixty-four characters; a rest of one or two bytes is filled up
with padding. The decoder passes over characters outside the alphabet and stops at a padding that
completes a group, so line ends inside the text do no harm; a group that is left incomplete is a
fault.
-/

namespace ApiOutline.Text.Base64

/-- The character for a number below sixty-four. -/
def digit (n : Nat) : Char :=
  if n < 26 then Char.ofNat (65 + n)
  else if n < 52 then Char.ofNat (71 + n)
  else if n < 62 then Char.ofNat (n - 4)
  else if n = 62 then '+'
  else '/'

/-- The number of a character of the alphabet. -/
def value? (c : Char) : Option Nat :=
  if 'A' ≤ c ∧ c ≤ 'Z' then some (c.toNat - 65)
  else if 'a' ≤ c ∧ c ≤ 'z' then some (c.toNat - 71)
  else if c.isDigit then some (c.toNat + 4)
  else if c = '+' then some 62
  else if c = '/' then some 63
  else none

def encodeNats : List Nat → List Char
  | [] => []
  | [a] => [digit (a / 4), digit (a % 4 * 16), '=', '=']
  | [a, b] => [digit (a / 4), digit (a % 4 * 16 + b / 16), digit (b % 16 * 4), '=']
  | a :: b :: c :: rest =>
      digit (a / 4) :: digit (a % 4 * 16 + b / 16) :: digit (b % 16 * 4 + c / 64) ::
        digit (c % 64) :: encodeNats rest

/-- The text of a byte sequence. -/
def encode (bs : List UInt8) : String :=
  String.ofList (encodeNats (bs.map UInt8.toNat))

/-- Decoding after `held` numbers of the current group have been read. The bits they leave over
are `left`, and `pads` paddings have been seen since the last of them. -/
def decodeNats (held left pads : Nat) : List Char → Option (List Nat)
  | [] => if held = 0 then some [] else none
  | c :: cs =>
      if c = '=' then
        if 2 ≤ held ∧ 4 ≤ held + pads + 1 then some []
        else decodeNats held left (pads + 1) cs
      else
        match value? c with
        | none => decodeNats held left pads cs
        | some v =>
            if held = 0 then decodeNats 1 v 0 cs
            else if held = 1 then
              (decodeNats 2 (v % 16) 0 cs).map ((left * 4 + v / 16) :: ·)
            else if held = 2 then
              (decodeNats 3 (v % 4) 0 cs).map ((left * 16 + v / 4) :: ·)
            else (decodeNats 0 0 0 cs).map ((left * 64 + v) :: ·)

/-- The bytes that a text encodes. -/
def decode? (cs : List Char) : Option (List UInt8) :=
  (decodeNats 0 0 0 cs).map (·.map UInt8.ofNat)

example : decode? "aGVs\nbG8=".toList = some [104, 101, 108, 108, 111] := by decide +kernel

end ApiOutline.Text.Base64
