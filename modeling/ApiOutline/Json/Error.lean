/-!
# What is wrong with a JSON text

A text is refused for one reason, at one place. The place is a character of the text; messages
show it also as a line and a column, all three counted in characters.
-/

namespace ApiOutline.Json

/-- Why a text is not JSON. -/
inductive Reason where
  | byteOrderMark
  | expectedValue
  | expectedName
  | expectedColon
  | expectedComma
  | extraData
  | unterminatedString
  | controlCharacter
  | badEscape
  | badUnicodeEscape
  deriving Repr, DecidableEq

/-- A reason and the number of characters before the place it concerns. -/
structure SyntaxError where
  reason : Reason
  offset : Nat
  deriving Repr, DecidableEq

/-- A text that cannot be read: it breaks the grammar, holds an integer of more digits than are
allowed, or opens more brackets, one within the other, than the reader has room for. -/
inductive Error where
  | malformed (e : SyntaxError)
  | tooManyDigits (count : Nat)
  | tooDeep
  deriving Repr, DecidableEq

def Reason.text : Reason → String
  | .byteOrderMark => "Unexpected UTF-8 BOM (decode using utf-8-sig)"
  | .expectedValue => "Expecting value"
  | .expectedName => "Expecting property name enclosed in double quotes"
  | .expectedColon => "Expecting ':' delimiter"
  | .expectedComma => "Expecting ',' delimiter"
  | .extraData => "Extra data"
  | .unterminatedString => "Unterminated string starting at"
  | .controlCharacter => "Invalid control character at"
  | .badEscape => "Invalid \\escape"
  | .badUnicodeEscape => "Invalid \\uXXXX escape"

/-- The line and the column of a place, both counted from one. -/
def lineColumn (text : List Char) (offset : Nat) : Nat × Nat :=
  let before := text.take offset
  let line := before.count '\n' + 1
  let column := (before.reverse.takeWhile (· != '\n')).length + 1
  (line, column)

/-- The message about a text. -/
def SyntaxError.message (e : SyntaxError) (text : String) : String :=
  let (line, column) := lineColumn text.toList e.offset
  e.reason.text ++ ": line " ++ toString line ++ " column " ++ toString column ++
    " (char " ++ toString e.offset ++ ")"

end ApiOutline.Json
