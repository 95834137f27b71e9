/-!
# Texts as bytes

Files, streams and answers are bytes. Most of them are read as UTF-8 and refused if they are not;
an answer from the network may name another encoding, and faults in it are replaced, not refused.
-/

namespace ApiOutline.Text

/-- The text of a byte sequence that is UTF-8. -/
def decodeUtf8? (bs : List UInt8) : Option String :=
  String.fromUTF8? (ByteArray.mk bs.toArray)

/-- The bytes of a text. -/
def encodeUtf8 (s : String) : List UInt8 :=
  s.toUTF8.toList

/-- The first byte of a sequence tells its length and, for some, bounds the second byte more
closely. -/
def sequenceShape (b : Nat) : Option (Nat × Nat × Nat) :=
  if b < 0x80 then some (1, 0, 0)
  else if 0xc2 ≤ b ∧ b ≤ 0xdf then some (2, 0x80, 0xbf)
  else if b = 0xe0 then some (3, 0xa0, 0xbf)
  else if b = 0xed then some (3, 0x80, 0x9f)
  else if 0xe1 ≤ b ∧ b ≤ 0xef then some (3, 0x80, 0xbf)
  else if b = 0xf0 then some (4, 0x90, 0xbf)
  else if 0xf1 ≤ b ∧ b ≤ 0xf3 then some (4, 0x80, 0xbf)
  else if b = 0xf4 then some (4, 0x80, 0x8f)
  else none

/-- How many of the bytes after the first continue its sequence. -/
def continued (need low high : Nat) : List Nat → Nat
  | [] => 0
  | b :: rest =>
      if need = 0 then 0
      else if low ≤ b ∧ b ≤ high then 1 + continued (need - 1) 0x80 0xbf rest
      else 0

/-- The number that a complete sequence encodes. -/
def sequenceValue (bs : List Nat) : Nat :=
  match bs with
  | [a] => a
  | [a, b] => (a % 0x20) * 0x40 + b % 0x40
  | [a, b, c] => ((a % 0x10) * 0x40 + b % 0x40) * 0x40 + c % 0x40
  | [a, b, c, d] => (((a % 0x08) * 0x40 + b % 0x40) * 0x40 + c % 0x40) * 0x40 + d % 0x40
  | _ => 0

/-- The text of any byte sequence: every longest broken start of a character becomes one
replacement character. -/
def decodeUtf8Lossy (bs : List UInt8) : String :=
  String.ofList (go bs.length (bs.map UInt8.toNat))
where
  go : Nat → List Nat → List Char
    | 0, _ => []
    | _, [] => []
    | fuel + 1, b :: rest =>
        match sequenceShape b with
        | none => '\ufffd' :: go fuel rest
        | some (n, low, high) =>
            let found := continued (n - 1) low high rest
            if found + 1 = n then
              Char.ofNat (sequenceValue (b :: rest.take found)) :: go fuel (rest.drop found)
            else '\ufffd' :: go fuel (rest.drop found)

/-- Line ends as files have them, all turned into line feeds. -/
def unifyLineEnds : List Char → List Char
  | [] => []
  | '\r' :: '\n' :: cs => '\n' :: unifyLineEnds cs
  | '\r' :: cs => '\n' :: unifyLineEnds cs
  | c :: cs => c :: unifyLineEnds cs

end ApiOutline.Text
