import ApiOutline.Yaml.Cursor

/-!
# Plain scalars

A plain scalar has no quotes. It ends before a colon that a blank follows, before a comment, and
inside brackets also before the signs that structure them. It may go on in the next line, if that
line is indented more than what surrounds the scalar.
-/

namespace ApiOutline.Yaml.Plain

/-- Whether a colon before this character ends a plain scalar. -/
def endsAtColon (inFlow : Bool) (c : Option Char) : Bool :=
  atEndOr (fun ch => isBlank ch || (inFlow && [',', '[', ']', '\x7b', '\x7d'].contains ch)) c

/-- Whether a character ends a plain scalar inside brackets. -/
def isFlowSign (c : Char) : Bool := [',', '?', '[', ']', '\x7b', '\x7d'].contains c

/-- The characters up to the next blank or sign. -/
def word (inFlow : Bool) : List Char → List Char
  | [] => []
  | c :: rest =>
      if isBlank c || (c == ':' && endsAtColon inFlow rest.head?) || (inFlow && isFlowSign c) then
        []
      else c :: word inFlow rest

/-- The line ends and spaces from here on, the ends only. They stop where a document ends. -/
def breaks : Nat → Cursor → Option (List Char) × Cursor
  | 0, c => (some [], c)
  | fuel + 1, c =>
      if c.peek == some ' ' then breaks fuel c.next
      else
        match c.lineBreak with
        | none => (some [], c)
        | some (b, c) =>
            if c.atDocumentMark then (none, c)
            else
              let (more, c) := breaks fuel c
              (more.map (b :: ·), c)

/-- What stands between two words. -/
structure Gap where
  /-- How it is read, empty where the scalar cannot go on. -/
  text : List Char
  /-- Whether a line ends in it. -/
  crossesLine : Bool
  cursor : Cursor

/-- The gap after a word. -/
def gap (c : Cursor) : Gap :=
  let (spaces, c) := c.span (· == ' ')
  match c.lineBreak with
  | none => ⟨spaces, false, c⟩
  | some (b, c) =>
      if c.atDocumentMark then ⟨[], true, c⟩
      else
        let (more, c) := breaks (c.rest.length + 1) c
        ⟨(more.map (folded b)).getD [], true, c⟩

/-- A plain scalar as it was read. -/
structure Scanned where
  text : List Char
  /-- Whether a line ended after the last word. -/
  crossesLine : Bool
  cursor : Cursor

/-- The words from here on. Those read before, with the gaps between them, are in `done`, the last
part first; `before` is the gap before the next word. -/
def words (inFlow : Bool) (indent : Int) :
    Nat → List (List Char) → Gap → Scanned
  | 0, done, before => ⟨done.reverse.flatten, before.crossesLine, before.cursor⟩
  | fuel + 1, done, before =>
      let w := word inFlow before.cursor.rest
      if w.isEmpty then ⟨done.reverse.flatten, before.crossesLine, before.cursor⟩
      else
        let after := gap (before.cursor.forward w.length)
        let done := w :: before.text :: done
        if after.text.isEmpty || after.cursor.peek == some '#' ||
            (!inFlow && decide ((after.cursor.column : Int) < indent)) then
          ⟨done.reverse.flatten, after.crossesLine, after.cursor⟩
        else words inFlow indent fuel done after

/-- A plain scalar, from its first character. -/
def scan (inFlow : Bool) (indent : Int) (c : Cursor) : Scanned :=
  words inFlow indent (c.rest.length + 1) [] ⟨[], false, c⟩

end ApiOutline.Yaml.Plain
