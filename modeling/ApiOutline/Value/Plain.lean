import ApiOutline.Text.Utf8
import ApiOutline.Value.Display

/-!
# The part of a value that JSON can hold

A published record holds only what JSON has: keys are texts, days and moments are written out,
bytes become the text they encode, sets become lists and numbers that are none become null. The
one value without such a form is a byte sequence that encodes no text.

A value can also be nested too deep to be published. Its plain form does not tell: how deep it is
nested (`nesting`) is held against a limit where records are published.
-/

namespace ApiOutline.Value

/-- The text that stands for a key. -/
def plainKey : Value → Option String
  | .str s => some s
  | .bool b => some (if b then "true" else "false")
  | .bytes bs => Text.decodeUtf8? bs
  | .moment t => some t.zuluText
  | v => some v.display

mutual

/-- The plain form of a value. -/
def plain : Value → Option Value
  | .null => some .null
  | .bool b => some (.bool b)
  | .int n => some (.int n)
  | .float x => some (if x.isNaN || x.isInf then .null else .float x)
  | .str s => some (.str s)
  | .bytes bs => (Text.decodeUtf8? bs).map .str
  | .date d => some (.str d.text)
  | .moment t => some (.str t.zuluText)
  | .list items => (plainList items).map .list
  | .set items => (plainList items).map .list
  | .map _ ms => (plainMembers ms).map fun ms => .map none (Members.ofList ms)

def plainList : List Value → Option (List Value)
  | [] => some []
  | v :: rest =>
      match plain v, plainList rest with
      | some v, some rest => some (v :: rest)
      | _, _ => none

def plainMembers : List (Value × Value) → Option (List (Value × Value))
  | [] => some []
  | (k, v) :: rest =>
      match plainKey k, plain v, plainMembers rest with
      | some k, some v, some rest => some ((.str k, v) :: rest)
      | _, _, _ => none

end

/-- The deepest of several. -/
def deepest (depths : List Nat) : Nat := depths.foldr max 0

mutual

/-- How deep a value is nested: a scalar is one deep, and so is what is empty. -/
def nesting : Value → Nat
  | .list items => nestingList items + 1
  | .set items => nestingList items + 1
  | .map _ ms => nestingMembers ms + 1
  | _ => 1

def nestingList : List Value → Nat
  | [] => 0
  | v :: rest => max (nesting v) (nestingList rest)

def nestingMembers : List (Value × Value) → Nat
  | [] => 0
  | (_, v) :: rest => max (nesting v) (nestingMembers rest)

end

end ApiOutline.Value
