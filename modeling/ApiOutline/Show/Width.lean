import ApiOutline.Text.Class

/-!
# Cells of a terminal

A terminal shows most characters in one cell, the characters of East Asia in two, and marks that
combine with the character before them in none. Text is broken into lines by words: a word that
fits on no line is cut, the rest of the words are moved to the next line as a whole.
-/

namespace ApiOutline.Show

/-- The characters that take two cells. -/
def wideRanges : List (Nat × Nat) :=
  [(0x1100, 0x115f), (0x231a, 0x231b), (0x2329, 0x232a), (0x23e9, 0x23ec), (0x2e80, 0x303e),
   (0x3041, 0xa4cf), (0xa960, 0xa97c), (0xac00, 0xd7a3), (0xf900, 0xfaff), (0xfe30, 0xfe6f),
   (0xff00, 0xff60), (0xffe0, 0xffe6), (0x1f300, 0x1f64f), (0x1f680, 0x1f6ff), (0x1f900, 0x1f9ff),
   (0x20000, 0x3fffd)]

/-- The marks that take no cell of their own. -/
def markRanges : List (Nat × Nat) :=
  [(0x300, 0x36f), (0x483, 0x489), (0x591, 0x5bd), (0x610, 0x61a), (0x64b, 0x65f),
   (0x200b, 0x200f), (0x20d0, 0x20f0), (0xfe00, 0xfe0f), (0xfe20, 0xfe2f)]

/-- Whether a character is a control character. -/
def isControl (c : Char) : Bool := c.toNat < 0x20 || (0x7f ≤ c.toNat && c.toNat < 0xa0)

/-- The cells that a character takes. -/
def cells (c : Char) : Nat :=
  if isControl c then 0
  else if c.toNat < 0x300 then 1
  else if Text.inRanges wideRanges c.toNat then 2
  else if Text.inRanges markRanges c.toNat then 0
  else 1

/-- The sum of some numbers of cells. -/
def sum (ns : List Nat) : Nat := ns.foldr (· + ·) 0

/-- The cells that a text takes. -/
def width (cs : List Char) : Nat := sum (cs.map cells)

def spaces (n : Nat) : List Char := List.replicate n ' '

/-- Whether a character would move the cursor, and is left out of what is drawn. -/
def movesCursor (c : Char) : Bool := [7, 8, 11, 12, 13].contains c.toNat

/-- The columns between two tab stops. -/
def tabSize : Nat := 8

/-- A line with spaces up to the next stop in the place of each tab. -/
def expandTabs : (column : Nat) → List Char → List Char
  | _, [] => []
  | column, c :: rest =>
      if c == '\t' then
        let gap := tabSize - column % tabSize
        spaces gap ++ expandTabs (column + gap) rest
      else c :: expandTabs (column + cells c) rest

/-- The words of a text. Each has the blanks after it, and the first one those before it. -/
def words (cs : List Char) : List (List Char) :=
  let rec go : Nat → List Char → List (List Char)
    | 0, _ => []
    | fuel + 1, cs =>
        let word := cs.takeWhile fun c => !Text.isBlank c
        let rest := cs.drop word.length
        let after := rest.takeWhile Text.isBlank
        if word.isEmpty then [] else (word ++ after) :: go fuel (rest.drop after.length)
  let before := cs.takeWhile Text.isBlank
  match go (cs.length + 1) (cs.drop before.length) with
  | [] => []
  | w :: rest => (before ++ w) :: rest

/-- The first characters of a text that fit into some cells. -/
def fitting : Nat → List Char → List Char
  | _, [] => []
  | n, c :: rest => if cells c ≤ n then c :: fitting (n - cells c) rest else []

/-- A word in pieces that each fit on a line. -/
def chop (width : Nat) : Nat → List Char → List (List Char)
  | 0, cs => [cs]
  | fuel + 1, cs =>
      let first := fitting width cs
      if first.length = cs.length ∨ first.isEmpty then [cs]
      else first :: chop width fuel (cs.drop first.length)

/-- A text without blanks at its end. -/
def trimEnd (cs : List Char) : List Char :=
  (cs.reverse.dropWhile Text.isBlank).reverse

/-- Puts words on lines. The line that is being filled is `line`; whether a word that fits on no
line is cut is said by `cuts`. -/
def fill (cuts : Bool) (limit : Nat) : List (List Char) → List Char → List (List Char)
  | [], line => [line]
  | w :: rest, line =>
      let size := width (trimEnd w)
      if size ≤ limit - width line ∧ width line ≤ limit then fill cuts limit rest (line ++ w)
      else if limit < size then
        let before := if line.isEmpty then [] else [line]
        if cuts then
          let pieces := chop limit w.length w
          before ++ pieces.dropLast ++ fill cuts limit rest (pieces.getLast?.getD [])
        else before ++ fill cuts limit rest w
      else if line.isEmpty then fill cuts limit rest w
      else line :: fill cuts limit rest w

/-- Drops blanks at the end of a line as long as it is too wide. -/
def trimTo (limit : Nat) (cs : List Char) : List Char :=
  let extra := width cs - limit
  let blanks := cs.length - (trimEnd cs).length
  cs.take (cs.length - min extra blanks)

/-- The lines of a paragraph. -/
def paragraph (cuts : Bool) (limit : Nat) (cs : List Char) : List (List Char) :=
  (fill cuts limit (words (expandTabs 0 cs)) []).map (trimTo limit)

/-- The lines of a text. -/
def wrapped (cuts : Bool) (limit : Nat) (cs : List Char) : List (List Char) :=
  (Text.splitOn '\n' cs).flatMap (paragraph cuts limit)

/-- A line that is too wide ends in an ellipsis instead. -/
def shortened (limit : Nat) (cs : List Char) : List Char :=
  if width cs ≤ limit then cs else fitting (limit - 1) cs ++ ['…']

/-- A line filled up with spaces. -/
def padded (limit : Nat) (cs : List Char) : List Char :=
  cs ++ spaces (limit - width cs)

/-- A line in the middle. -/
def centred (limit : Nat) (cs : List Char) : List Char :=
  padded limit (spaces ((limit - width cs) / 2) ++ cs)

end ApiOutline.Show
