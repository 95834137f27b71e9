import ApiOutline.Decimal.Read

/-!
# A place in a text

YAML is a language of lines and columns, so its reader knows at every place how many characters,
lines and columns came before. The end of the text has no character; wherever a rule asks for a
blank or a line end, the end of the text is as good as one.
-/

namespace ApiOutline.Yaml

/-- Why a text holds no YAML document. Most texts break the grammar; in some the grammar is kept
and a scalar denotes nothing. Where a node stands within itself, what it denotes is no tree
(`endless`), and the search for the text of a scalar in it may not end (`circular`). -/
inductive Error where
  | malformed
  | outOfRange
  | tooLarge
  | noDigits
  | unknownWord
  | noTimestamp
  | endless
  | circular
  deriving Repr, DecidableEq

/-- A place: what follows it, and what came before in characters, lines and columns. -/
structure Cursor where
  rest : List Char
  index : Nat
  line : Nat
  column : Nat

/-- Whether a character ends a line. -/
def isBreak (c : Char) : Bool :=
  c == '\n' || c == '\r' || c == '\x85' || c == '\u2028' || c == '\u2029'

/-- Whether a character is a space or a tab. -/
def isWhite (c : Char) : Bool := c == ' ' || c == '\t'

/-- Whether a character separates what stands before it from what follows. -/
def isBlank (c : Char) : Bool := isWhite c || isBreak c

/-- Whether a class holds at the end of the text or of the character that is there. -/
def atEndOr (p : Char → Bool) (c : Option Char) : Bool := c.elim true p

/-- Whether the text ends here, or a line does. -/
def endsLine : Option Char → Bool := atEndOr isBreak

/-- Whether the text ends here, or a space or line end follows. -/
def endsWord : Option Char → Bool := atEndOr fun c => c == ' ' || isBreak c

/-- Whether the text ends here, or a space, a tab or a line end follows. -/
def endsToken : Option Char → Bool := atEndOr isBlank

/-- Whether a character may stand in a name. -/
def isNameChar (c : Char) : Bool := c.isAlphanum || c == '-' || c == '_'

namespace Cursor

def start (text : List Char) : Cursor := ⟨text, 0, 0, 0⟩

/-- The character at a place. -/
def peek (c : Cursor) : Option Char := c.rest.head?

/-- The character some way after a place. -/
def peekAt (c : Cursor) (n : Nat) : Option Char := c.rest[n]?

/-- The place after the next character. A carriage return before a line feed ends no line yet, and
a byte order mark takes no column. -/
def next (c : Cursor) : Cursor :=
  match c.rest with
  | [] => c
  | ch :: rest =>
      if isBreak ch && !(ch == '\r' && rest.head? == some '\n') then
        ⟨rest, c.index + 1, c.line + 1, 0⟩
      else ⟨rest, c.index + 1, c.line, if ch == '\ufeff' then c.column else c.column + 1⟩

/-- The place some characters on. -/
def forward : Nat → Cursor → Cursor
  | 0, c => c
  | n + 1, c => forward n c.next

/-- The characters of a class from here on, and the place after them. -/
def span (p : Char → Bool) (c : Cursor) : List Char × Cursor :=
  let taken := c.rest.takeWhile p
  (taken, forward taken.length c)

/-- The place after the characters of a class. -/
def skip (p : Char → Bool) (c : Cursor) : Cursor := (c.span p).2

/-- The line end at a place, and the place after it. Ends that other systems write become a line
feed; the two separators of Unicode stay. -/
def lineBreak (c : Cursor) : Option (Char × Cursor) :=
  match c.rest with
  | '\r' :: '\n' :: _ => some ('\n', forward 2 c)
  | ch :: _ =>
      if isBreak ch then
        some (if ch == '\u2028' || ch == '\u2029' then ch else '\n', c.next)
      else none
  | [] => none

/-- Whether three marks of one kind stand here as a word. -/
def atMarks (mark : Char) (c : Cursor) : Bool :=
  c.rest.take 3 == [mark, mark, mark] && endsToken (c.peekAt 3)

/-- Whether something stands here that separates documents, if only a line begins here. -/
def atDocumentMark (c : Cursor) : Bool := c.atMarks '-' || c.atMarks '.'

/-- The place after spaces and a comment. -/
def skipComment (c : Cursor) : Cursor :=
  let c := c.skip (· == ' ')
  if c.peek == some '#' then c.skip fun ch => !isBreak ch else c

/-- The place after the rest of a line that holds nothing but a comment. -/
def endLine (c : Cursor) : Except Error Cursor :=
  let c := c.skipComment
  if endsLine c.peek then .ok ((c.lineBreak.map (·.2)).getD c) else .error .malformed

end Cursor

/-- How a line end and the empty lines after it are read within a flowing text: a single one as a
space. -/
def folded (first : Char) (more : List Char) : List Char :=
  if first != '\n' then first :: more else if more.isEmpty then [' '] else more

/-- Whether a text holds only characters that YAML allows. -/
def isPrintable (c : Char) : Bool :=
  let n := c.toNat
  n == 0x9 || n == 0xa || n == 0xd || (0x20 ≤ n && n ≤ 0x7e) || n == 0x85 ||
    (0xa0 ≤ n && n ≤ 0xfffd) || 0x10000 ≤ n

end ApiOutline.Yaml
