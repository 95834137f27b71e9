import ApiOutline.Record.Form

/-!
# Fields of a model

A `Field` is one property of a model. Its reference, if it has one, is the bare name of another
model. An array has a field of its own for its elements, which carries no name.
-/

namespace ApiOutline

open Record (Checked Form Entry Number)

/-- One property of a model. -/
structure Field where
  name : Option String
  type : Option String
  ref : Option String
  description : Option String
  enum : Option (List Value)
  sample : Option Value
  format : Option String
  items : Option Field
  default : Option Value
  minimum : Option Number
  maximum : Option Number
  required : Option Bool
  deriving Inhabited

namespace Field

/-- A field with a name, a type, a description and nothing else. -/
def plain (name type description : String) (sample : Option Value) (required : Option Bool) :
    Field :=
  ⟨some name, some type, none, some description, none, sample, none, none, none, none, none,
    required⟩

mutual

/-- The field with its free values changed, at every depth: its choices, its example and its
default. Nothing else of a field is kept as a value of the document. -/
def mapFree (g : Value → Value) : Field → Field
  | ⟨name, type, ref, description, enum, sample, format, items, default, minimum, maximum,
      required⟩ =>
      ⟨name, type, ref, description, enum.map (List.map g), sample.map g, format,
        mapFreeItems g items, default.map g, minimum, maximum, required⟩

def mapFreeItems (g : Value → Value) : Option Field → Option Field
  | none => none
  | some f => some (mapFree g f)

end

/-- A member that may be null or absent, under one name. -/
private def unset {α : Type} (ms : Members) (name : String) (read : Value → Checked α) :
    Checked (Option α) :=
  Record.optional ms name [] none (Record.nullable read)

mutual

/-- Reads a field. Members that no field has are passed over. -/
def read : Value → Checked Field
  | .map _ ms =>
      mk <$> unset ms "name" Record.text
        <*> unset ms "type" Record.text
        <*> Record.optional ms "$ref" ["ref"] none (Record.nullable Record.text)
        <*> unset ms "description" Record.text
        <*> unset ms "enum" (Record.listOf Record.anything)
        <*> unset ms "example" Record.anything
        <*> unset ms "format" Record.text
        <*> (readItems ms).under (.member "items")
        <*> unset ms "default" Record.anything
        <*> unset ms "minimum" Record.number
        <*> unset ms "maximum" Record.number
        <*> unset ms "required" Record.truth
  | _ => .fault .notRecord

/-- Reads the field of the elements, if one of the members holds it. -/
def readItems : List (Value × Value) → Checked (Option Field)
  | [] => .accepted none
  | (k, v) :: rest =>
      if k.sameKey (.str "items") then
        match v with
        | .null => .accepted none
        | .map c ms => some <$> read (.map c ms)
        | _ => .fault .notRecord
      else readItems rest

end

mutual

/-- Writes a field. A field whose free values have no plain form cannot be written. -/
def write (form : Form) : Field → Option Value
  | ⟨name, type, ref, description, enum, sample, format, items, default, minimum, maximum,
      required⟩ =>
      match enum.elim (some []) Value.plainList, Record.plainOption sample,
          writeItems form items, Record.plainOption default with
      | some choices, some sample, some items, some default =>
          some (form.write
            [.same "name" (name.map .str), .same "type" (type.map .str),
             ⟨"$ref", "ref", ref.map .str⟩, .same "description" (description.map .str),
             .same "enum" (enum.map fun _ => .list choices), .same "example" sample,
             .same "format" (format.map .str), .same "items" items, .same "default" default,
             .same "minimum" (minimum.map Number.value),
             .same "maximum" (maximum.map Number.value), .same "required" (required.map .bool)])
      | _, _, _, _ => none

/-- Writes the field of the elements, if there is one. -/
def writeItems (form : Form) : Option Field → Option (Option Value)
  | none => some none
  | some f =>
      match write form f with
      | some v => some (some v)
      | none => none

end

mutual

/-- How deep a field is nested, its elements and its free values within it. -/
def nesting : Field → Nat
  | ⟨_, _, _, _, enum, sample, _, items, default, _, _, _⟩ =>
      Value.deepest [enum.elim 0 Value.nestingList, sample.elim 0 Value.nesting,
        nestingItems items, default.elim 0 Value.nesting] + 1

def nestingItems : Option Field → Nat
  | none => 0
  | some f => nesting f

end

end Field

end ApiOutline
