import ApiOutline.Yaml.Cursor

/-!
# Quoted scalars

Between single quotes only the quote itself is special: it is written twice. Between double quotes
a backslash begins an escape. In both, a line end with the blanks around it is read as a space, and
every further line end as a line feed; after a backslash it is read as nothing.
-/

namespace ApiOutline.Yaml.Quoted

/-- What the character after a backslash stands for. -/
def simpleEscape : Char → Option Char
  | '0' => some '\x00'
  | 'a' => some '\x07'
  | 'b' => some '\x08'
  | 't' | '\t' => some '\t'
  | 'n' => some '\n'
  | 'v' => some '\x0b'
  | 'f' => some '\x0c'
  | 'r' => some '\r'
  | 'e' => some '\x1b'
  | ' ' => some ' '
  | '"' => some '"'
  | '\\' => some '\\'
  | '/' => some '/'
  | 'N' => some '\x85'
  | '_' => some '\xa0'
  | 'L' => some '\u2028'
  | 'P' => some '\u2029'
  | _ => none

/-- How many digits follow the letter of an escape by number. -/
def digitCount : Char → Option Nat
  | 'x' => some 2
  | 'u' => some 4
  | 'U' => some 8
  | _ => none

/-- The character with a number. Half of a pair stands for no character of its own. -/
def numbered (n : Nat) : Except Error Char :=
  if 0x110000 ≤ n then .error (if 0x80000000 ≤ n then .tooLarge else .outOfRange)
  else .ok (if 0xd800 ≤ n ∧ n < 0xe000 then '\ufffd' else Char.ofNat n)

/-- The line ends from here on, with the blanks before each of them. -/
def breaks : Nat → Cursor → Except Error (List Char × Cursor)
  | 0, c => .ok ([], c)
  | fuel + 1, c =>
      if c.atDocumentMark then .error .malformed
      else
        let c := c.skip isWhite
        match c.lineBreak with
        | none => .ok ([], c)
        | some (b, c) =>
            match breaks fuel c with
            | .ok (more, c) => .ok (b :: more, c)
            | .error e => .error e

/-- What follows a backslash, from the character after it. -/
def escape (c : Cursor) : Except Error (List Char × Cursor) :=
  match c.peek with
  | none => .error .malformed
  | some ch =>
      match simpleEscape ch, digitCount ch with
      | some image, _ => .ok ([image], c.next)
      | none, some n =>
          let digits := (c.next.rest.take n)
          if digits.length == n && digits.all Decimal.isHexDigit then
            match numbered (Decimal.ofDigits 16 digits) with
            | .ok image => .ok ([image], c.next.forward n)
            | .error e => .error e
          else .error .malformed
      | none, none =>
          match c.lineBreak with
          | some (_, c) => breaks (c.rest.length + 1) c
          | none => .error .malformed

/-- Blanks inside quotes, from the first of them on: kept within a line, folded around its end. -/
def blanks (c : Cursor) : Except Error (List Char × Cursor) :=
  let (white, after) := c.span isWhite
  match after.peek, after.lineBreak with
  | none, _ => .error .malformed
  | _, none => .ok (white, after)
  | _, some (b, after) =>
      match breaks (after.rest.length + 1) after with
      | .ok (more, after) => .ok (folded b more, after)
      | .error e => .error e

/-- The text up to the closing quote, from the place after the opening one. What was read before is
in `done`, the last part first. -/
def body (quote : Char) : Nat → List (List Char) → Cursor → Except Error (List Char × Cursor)
  | 0, _, _ => .error .malformed
  | fuel + 1, done, c =>
      match c.peek with
      | none => .error .malformed
      | some ch =>
          if ch == quote then
            if quote == '\'' && c.peekAt 1 == some '\'' then
              body quote fuel (['\''] :: done) (c.forward 2)
            else .ok (done.reverse.flatten, c.next)
          else if quote == '"' && ch == '\\' then
            match escape c.next with
            | .ok (image, c) => body quote fuel (image :: done) c
            | .error e => .error e
          else if isBlank ch then
            match blanks c with
            | .ok (white, c) => body quote fuel (white :: done) c
            | .error e => .error e
          else body quote fuel ([ch] :: done) c.next

/-- A quoted scalar, from its opening quote. -/
def scan (quote : Char) (c : Cursor) : Except Error (List Char × Cursor) :=
  body quote (c.rest.length + 1) [] c.next

end ApiOutline.Yaml.Quoted
