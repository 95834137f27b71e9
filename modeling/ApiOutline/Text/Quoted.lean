import ApiOutline.Text.Class

/-!
# Quoted text

The form in which messages show a text inside a larger value: between quotes, with whatever could
not be read off a screen written as an escape. Single quotes are used unless the text holds one
and no double quote.
-/

namespace ApiOutline.Text

/-- The digits of a number in base sixteen, with leading zeros up to a width. -/
def hex (width n : Nat) : List Char :=
  let ds := Nat.toDigits 16 n
  List.replicate (width - ds.length) '0' ++ ds

/-- The quote to put around a text. -/
def quoteFor (cs : List Char) : Char :=
  if cs.contains '\'' && !cs.contains '"' then '"' else '\''

/-- A character as it stands between two quotes. -/
def escapeIn (quote c : Char) : List Char :=
  if c = quote ∨ c = '\\' then ['\\', c]
  else if c = '\n' then ['\\', 'n']
  else if c = '\r' then ['\\', 'r']
  else if c = '\t' then ['\\', 't']
  else if isPrintable c then [c]
  else if c.toNat < 0x100 then ['\\', 'x'] ++ hex 2 c.toNat
  else if c.toNat < 0x10000 then ['\\', 'u'] ++ hex 4 c.toNat
  else ['\\', 'U'] ++ hex 8 c.toNat

/-- A text between quotes. -/
def quoted (s : String) : String :=
  let quote := quoteFor s.toList
  String.ofList (quote :: s.toList.flatMap (escapeIn quote) ++ [quote])

/-- Bytes between quotes: printable ASCII as it is, all else by number. -/
def quotedBytes (bs : List UInt8) : String :=
  let cs := bs.map fun b => Char.ofNat b.toNat
  let quote := quoteFor cs
  let escape (c : Char) : List Char :=
    if 128 ≤ c.toNat then ['\\', 'x'] ++ hex 2 c.toNat else escapeIn quote c
  String.ofList (['b', quote] ++ cs.flatMap escape ++ [quote])

example : quoted "it's" = "\"it's\"" := by decide +kernel
example : quoted "a\n\u00ad" = "'a\\n\\xad'" := by decide +kernel

end ApiOutline.Text
