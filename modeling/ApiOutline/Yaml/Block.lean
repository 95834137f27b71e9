import ApiOutline.Yaml.Cursor

/-!
# Block scalars

A block scalar is all that is indented below its header. A bar keeps the line ends; an angle
bracket folds them, except around lines that are indented further. The header may fix the
indentation and says what becomes of the line ends after the last line.
-/

namespace ApiOutline.Yaml.Block

/-- What becomes of the line ends after the last line. -/
inductive Ending where
  | one
  | none
  | all
  deriving Repr, DecidableEq

/-- The header of a block scalar. -/
structure Header where
  ending : Ending
  indentation : Option Nat

/-- The sign for an ending. -/
def ending? : Option Char → Option Ending
  | some '+' => some .all
  | some '-' => some .none
  | _ => none

/-- The digit at a place. Zero is no indentation. -/
def indentation? (c : Cursor) : Except Error (Option Nat) :=
  match c.peek with
  | some ch =>
      if ch == '0' then .error .malformed
      else if ch.isDigit then .ok (some (ch.toNat - 48))
      else .ok none
  | none => .ok none

/-- Reads a header after its sign. Its two parts may come in either order. -/
def header (c : Cursor) : Except Error (Header × Cursor) := do
  let first := ending? c.peek
  let c := if first.isSome then c.next else c
  let indentation ← indentation? c
  let c := if indentation.isSome then c.next else c
  let second := if first.isNone && indentation.isSome then ending? c.peek else none
  let c := if second.isSome then c.next else c
  if endsWord c.peek then
    return (⟨(first.orElse fun _ => second).getD .one, indentation⟩, ← c.endLine)
  else throw .malformed

/-- The line ends from here on, with the furthest column that the spaces among them reach. -/
def leading : Nat → Nat → Cursor → List Char × Nat × Cursor
  | 0, furthest, c => ([], furthest, c)
  | fuel + 1, furthest, c =>
      if c.peek == some ' ' then leading fuel (max furthest c.next.column) c.next
      else
        match c.lineBreak with
        | none => ([], furthest, c)
        | some (b, c) =>
            let (more, furthest, c) := leading fuel furthest c
            (b :: more, furthest, c)

/-- The place after spaces up to a column. -/
def indentTo (column : Nat) (c : Cursor) : Cursor :=
  c.forward (min (column - c.column) (c.rest.takeWhile (· == ' ')).length)

/-- The line ends from here on, each followed by no more spaces than the indentation. -/
def breaks (indent : Nat) : Nat → Cursor → List Char × Cursor
  | 0, c => ([], c)
  | fuel + 1, c =>
      let c := indentTo indent c
      match c.lineBreak with
      | none => ([], c)
      | some (b, c) =>
          let (more, c) := breaks indent fuel c
          (b :: more, c)

/-- What has been read of a block scalar. -/
structure Lines where
  /-- The parts, the last one first. -/
  done : List (List Char)
  /-- The line end after the last line, if there is one. -/
  lineEnd : List Char
  /-- The line ends after that. -/
  more : List Char
  cursor : Cursor

/-- Whether a line begins at a place, at the given column. -/
def atLine (indent : Nat) (c : Cursor) : Bool :=
  c.column == indent && c.peek.isSome

/-- The lines from here on. -/
def lines (isFolded : Bool) (indent : Nat) : Nat → List (List Char) → List Char → Cursor → Lines
  | 0, done, before, c => ⟨done, [], before, c⟩
  | fuel + 1, done, before, c =>
      let (line, after) := c.span fun ch => !isBreak ch
      let (lineEnd, after) :=
        match after.lineBreak with
        | some (b, after) => ([b], after)
        | none => ([], after)
      let (more, after) := breaks indent (after.rest.length + 1) after
      let done := line :: before :: done
      if atLine indent after then
        let folds := isFolded && lineEnd == ['\n'] && !atEndOr isWhite c.peek &&
          !atEndOr isWhite after.peek
        let joint := if folds then (if more.isEmpty then [' '] else []) else lineEnd
        lines isFolded indent fuel (joint :: done) more after
      else ⟨done, lineEnd, more, after⟩

/-- A block scalar, from its sign. The indentation is that of what surrounds it. -/
def scan (isFolded : Bool) (surrounding : Int) (c : Cursor) :
    Except Error (List Char × Cursor) := do
  let (h, c) ← header c.next
  let least := max 1 (surrounding + 1).toNat
  let (before, indent, c) :=
    match h.indentation with
    | some n =>
        let indent := least + n - 1
        let (before, c) := breaks indent (c.rest.length + 1) c
        (before, indent, c)
    | none =>
        let (before, furthest, c) := leading (c.rest.length + 1) 0 c
        (before, max least furthest, c)
  let read : Lines :=
    if atLine indent c then lines isFolded indent (c.rest.length + 1) [] before c
    else ⟨[], [], before, c⟩
  let text := read.done.reverse.flatten
  let text :=
    match h.ending with
    | .none => text
    | .one => text ++ read.lineEnd
    | .all => text ++ read.lineEnd ++ read.more
  return (text, read.cursor)

end ApiOutline.Yaml.Block
