import ApiOutline.Text.Quoted
import ApiOutline.Value.Display

/-!
# Writing JSON

A `Style` says how a value is laid out: on one line, or with every member on a line of its own
under an indentation per level, and whether characters outside ASCII are written by number. The
text is a function of the value and the style, member by member in order.

Numbers that JSON has no text for are written as words; a reader of plain JSON refuses them.
-/

namespace ApiOutline.Json

/-- A layout. Without an indentation everything stands on one line. -/
structure Style where
  indent : Option Nat
  asciiOnly : Bool
  deriving Repr, DecidableEq

/-- An escape by number, in two halves beyond the first plane. -/
def unitEscape (c : Char) : List Char :=
  let n := c.toNat
  if n < 0x10000 then ['\\', 'u'] ++ Text.hex 4 n
  else
    let m := n - 0x10000
    ['\\', 'u'] ++ Text.hex 4 (0xd800 + m / 0x400) ++ ['\\', 'u'] ++ Text.hex 4 (0xdc00 + m % 0x400)

/-- A character inside a string. -/
def escape (asciiOnly : Bool) (c : Char) : List Char :=
  if c = '"' then ['\\', '"']
  else if c = '\\' then ['\\', '\\']
  else if c = '\n' then ['\\', 'n']
  else if c = '\r' then ['\\', 'r']
  else if c = '\t' then ['\\', 't']
  else if c = '\x0c' then ['\\', 'f']
  else if c = '\x08' then ['\\', 'b']
  else if c.toNat < 0x20 then unitEscape c
  else if asciiOnly && 0x7f ≤ c.toNat then unitEscape c
  else [c]

/-- A string between quotes. -/
def writeString (asciiOnly : Bool) (s : String) : List Char :=
  '"' :: s.toList.flatMap (escape asciiOnly) ++ ['"']

/-- The name of a member. Keys that are no texts are named by what they denote. -/
def keyName : Value → String
  | .str s => s
  | .null => "null"
  | .bool b => if b then "true" else "false"
  | .float x => Decimal.jsonNotation.write x
  | v => v.display

/-- The line end and the indentation before a member at a level. -/
def Style.newline (style : Style) (level : Nat) : List Char :=
  match style.indent with
  | none => []
  | some n => '\n' :: List.replicate (n * level) ' '

/-- What stands between two members at a level. -/
def Style.separator (style : Style) (level : Nat) : List Char :=
  match style.indent with
  | none => [',', ' ']
  | some _ => ',' :: style.newline level

/-- Members between brackets. Empty brackets stay together. -/
def Style.bracket (style : Style) (level : Nat) (opening closing : Char)
    (parts : List (List Char)) : List Char :=
  if parts.isEmpty then [opening, closing]
  else
    opening :: style.newline (level + 1) ++ (style.separator (level + 1)).intercalate parts ++
      style.newline level ++ [closing]

mutual

/-- A value whose brackets stand at a level. -/
def write (style : Style) (level : Nat) : Value → List Char
  | .null => "null".toList
  | .bool b => (if b then "true" else "false").toList
  | .int n => (Decimal.intText n).toList
  | .float x => (Decimal.jsonNotation.write x).toList
  | .str s => writeString style.asciiOnly s
  | .bytes bs => writeString style.asciiOnly (Text.quotedBytes bs)
  | .date d => writeString style.asciiOnly d.text
  | .moment t => writeString style.asciiOnly (t.textWith " ")
  | .list items => style.bracket level '[' ']' (writeItems style (level + 1) items)
  | .set items => style.bracket level '[' ']' (writeItems style (level + 1) items)
  | .map _ ms => style.bracket level '\x7b' '\x7d' (writeMembers style (level + 1) ms)

def writeItems (style : Style) (level : Nat) : List Value → List (List Char)
  | [] => []
  | v :: rest => write style level v :: writeItems style level rest

def writeMembers (style : Style) (level : Nat) : List (Value × Value) → List (List Char)
  | [] => []
  | (k, v) :: rest =>
      (writeString style.asciiOnly (keyName k) ++ [':', ' '] ++ write style level v) ::
        writeMembers style level rest

end

/-- The text of a value. -/
def render (style : Style) (v : Value) : String :=
  String.ofList (write style 0 v)

end ApiOutline.Json
