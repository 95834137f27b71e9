import ApiOutline.Text.Utf8
import ApiOutline.Yaml.Block
import ApiOutline.Yaml.Plain
import ApiOutline.Yaml.Quoted

/-!
# Tokens

The tokens of a YAML text, and the scanners of those that are more than a sign. Indentation is made
visible by tokens of its own: one where a block of entries or members begins, and one where it
ends.
-/

namespace ApiOutline.Yaml

/-- What a directive says. Directives other than these two are passed over. -/
inductive Directive where
  | version (major : Nat)
  | tag (handle start : String)
  | other
  deriving Repr, DecidableEq

inductive Token where
  | directive (d : Directive)
  | documentStart
  | documentEnd
  | blockSequence
  | blockMapping
  | blockEnd
  | flowSequence
  | flowSequenceEnd
  | flowMapping
  | flowMappingEnd
  | blockEntry
  | flowEntry
  | key
  | value
  | alias (name : String)
  | anchor (name : String)
  | tag (handle : Option String) (suffix : String)
  | scalar (text : String) (plain : Bool)
  deriving Repr, DecidableEq

namespace Token

/-- Whether a character may stand in the address of a tag. -/
def isAddressChar (c : Char) : Bool :=
  isNameChar c || ";/?:@&=+$,_.!~*'()[]%".toList.contains c

/-- Bytes written by number, as long as they follow each other. -/
def escapedBytes : Nat → Cursor → Except Error (List UInt8 × Cursor)
  | 0, c => .ok ([], c)
  | fuel + 1, c =>
      if c.peek == some '%' then
        let digits := c.next.rest.take 2
        if digits.length == 2 && digits.all Decimal.isHexDigit then do
          let (more, c) ← escapedBytes fuel (c.forward 3)
          return ((Decimal.ofDigits 16 digits).toUInt8 :: more, c)
        else .error .malformed
      else .ok ([], c)

/-- An address, in which characters may be written by number. -/
def addressParts : Nat → Cursor → Except Error (List Char × Cursor)
  | 0, c => .ok ([], c)
  | fuel + 1, c =>
      match c.peek with
      | some '%' => do
          let (bytes, c) ← escapedBytes (c.rest.length + 1) c
          match Text.decodeUtf8? bytes with
          | none => throw .malformed
          | some s =>
              let (more, c) ← addressParts fuel c
              return (s.toList ++ more, c)
      | some ch =>
          if isAddressChar ch then do
            let (more, c) ← addressParts fuel c.next
            return (ch :: more, c)
          else return ([], c)
      | none => .ok ([], c)

/-- An address that is not empty. -/
def address (c : Cursor) : Except Error (String × Cursor) := do
  let (text, after) ← addressParts (c.rest.length + 1) c
  if after.index == c.index then throw .malformed else return (String.ofList text, after)

/-- A handle: an exclamation mark alone, or a name between two of them. -/
def handle (c : Cursor) : Except Error (String × Cursor) :=
  if c.peek == some '!' then
    if c.peekAt 1 == some ' ' then .ok ("!", c.next)
    else
      let (name, after) := c.next.span isNameChar
      if after.peek == some '!' then
        .ok (String.ofList ('!' :: name ++ ['!']), after.next)
      else .error .malformed
  else .error .malformed

/-- A number of a version. -/
def versionNumber (c : Cursor) : Except Error (Nat × Cursor) :=
  let (ds, after) := c.span Char.isDigit
  if ds.isEmpty then .error .malformed
  else if Decimal.digitLimit < ds.length then .error .outOfRange
  else .ok (Decimal.ofDigits 10 ds, after)

/-- The value of a version directive. -/
def versionValue (c : Cursor) : Except Error (Directive × Cursor) := do
  let (major, c) ← versionNumber (c.skip (· == ' '))
  if c.peek == some '.' then
    let (_, c) ← versionNumber c.next
    if endsWord c.peek then return (.version major, c) else throw .malformed
  else throw .malformed

/-- The value of a directive that gives a handle its meaning. -/
def tagValue (c : Cursor) : Except Error (Directive × Cursor) := do
  let (name, c) ← handle (c.skip (· == ' '))
  if c.peek == some ' ' then
    let (start, c) ← address (c.skip (· == ' '))
    if endsWord c.peek then return (.tag name start, c) else throw .malformed
  else throw .malformed

/-- A directive, from its percent sign. -/
def scanDirective (c : Cursor) : Except Error (Token × Cursor) := do
  let (name, c) := c.next.span isNameChar
  if name.isEmpty || !endsWord c.peek then throw .malformed
  let (d, c) ←
    if name == "YAML".toList then versionValue c
    else if name == "TAG".toList then tagValue c
    else pure (.other, c.skip fun ch => !isBreak ch)
  return (.directive d, ← c.endLine)

/-- The name after the sign of an anchor or an alias. -/
def scanName (c : Cursor) : Except Error (String × Cursor) :=
  let (name, after) := c.next.span isNameChar
  let closes (ch : Char) : Bool := isBlank ch || "?:,]\x7d%@`".toList.contains ch
  if name.isEmpty || !atEndOr closes after.peek then .error .malformed
  else .ok (String.ofList name, after)

/-- Whether a second exclamation mark comes before the next space or line end. -/
def hasHandle (cs : List Char) : Bool :=
  (cs.takeWhile fun ch => !(ch == ' ' || isBreak ch)).contains '!'

/-- A tag, from its exclamation mark. -/
def scanTag (c : Cursor) : Except Error (Token × Cursor) := do
  let (token, c) ←
    if c.peekAt 1 == some '<' then
      let (suffix, c) ← address (c.forward 2)
      if c.peek == some '>' then pure (Token.tag none suffix, c.next) else throw .malformed
    else if endsToken (c.peekAt 1) then pure (Token.tag none "!", c.next)
    else if hasHandle c.next.rest then
      let (name, c) ← handle c
      let (suffix, c) ← address c
      pure (Token.tag (some name) suffix, c)
    else
      let (suffix, c) ← address c.next
      pure (Token.tag (some "!") suffix, c)
  if endsWord c.peek then return (token, c) else throw .malformed

end Token

end ApiOutline.Yaml
