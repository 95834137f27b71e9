import ApiOutline.Model
import ApiOutline.Schema.Property

/-!
# Models from schemas

A schema with properties becomes a model with a field for each property, in order. Whether a field
is required is known only where the schema lists the required names; what a property says of
itself does not count.
-/

namespace ApiOutline.Schema

/-- Whether a key is among the required names, where there is a list of them. -/
def requiredMark (required key : Value) : Value :=
  match required with
  | .list names => .bool (names.any key.sameKey)
  | _ => .null

/-- The members that the field of a property is read from. -/
def draft (required key property : Value) : Members :=
  let own :=
    match property with
    | .map _ ms => ms
    | _ => []
  Members.set (Members.set own "name" key) "required" (requiredMark required key)

/-- The field of a property. -/
def fieldOf (required : Value) (property : Value × Value) : Except Failure Field := do
  let members ← normalize (draft required property.1 property.2)
  checked .field (Field.read (.ofMembers members))

/-- The fields of a schema's properties. -/
def fieldsOf (required : Value) : Members → Except Failure (List Field)
  | [] => .ok []
  | p :: rest => do
      let field ← fieldOf required p
      return field :: (← fieldsOf required rest)

/-- The model of a schema under a name. -/
def toModel (name : Value) (schema : Value) : Except Failure Model := do
  let ms ← schema.members
  let properties ← (Members.find ms "properties").membersIfAny
  let fields ← fieldsOf (Members.find ms "required") properties
  checked .model
    ((fun name description => ⟨name, description, fields⟩)
      <$> (Record.text name).under (.member "name")
      <*> (Record.nullable Record.text (Members.find ms "description")).under
            (.member "description"))

end ApiOutline.Schema
