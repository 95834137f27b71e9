import ApiOutline.Field

/-!
# Models

A `Model` is a named list of fields: the shape of one object that an API sends or takes.
-/

namespace ApiOutline

open Record (Checked Form Entry)

/-- A named list of fields. -/
structure Model where
  name : String
  description : Option String
  fields : List Field
  deriving Inhabited

namespace Model

/-- The model with the free values of its fields changed. -/
def mapFree (g : Value → Value) (m : Model) : Model :=
  { m with fields := m.fields.map (Field.mapFree g) }

@[simp] theorem name_mapFree (g : Value → Value) (m : Model) : (m.mapFree g).name = m.name := rfl

@[simp] theorem description_mapFree (g : Value → Value) (m : Model) :
    (m.mapFree g).description = m.description := rfl

@[simp] theorem fields_mapFree (g : Value → Value) (m : Model) :
    (m.mapFree g).fields = m.fields.map (Field.mapFree g) := rfl

def read : Value → Checked Model
  | .map _ ms =>
      Model.mk <$> Record.required ms "name" [] Record.text
        <*> Record.optional ms "description" [] none (Record.nullable Record.text)
        <*> Record.optional ms "fields" [] [] (Record.listOf Field.read)
  | _ => .fault .notRecord

def write (form : Form) (m : Model) : Option Value :=
  match m.fields.mapM (Field.write form) with
  | none => none
  | some fields =>
      some (form.write
        [.same "name" (some (.str m.name)), .same "description" (m.description.map .str),
         .same "fields" (some (.list fields))])

/-- How deep the fields of a model are nested. -/
def nesting (m : Model) : Nat := Value.deepest (m.fields.map Field.nesting)

/-- The model of a file to be sent. Every binary field refers to it. -/
def attachment : Model where
  name := "Attachment"
  description := some "Attachment is a file to be uploaded"
  fields :=
    [.plain "filename" "string" "Filename with extension" (some (.str "example.png")) none,
     .plain "content" "byte[]" "Binary content of the file" none (some true),
     .plain "contentType" "string" "Content type of the file, such as \"image/png\"" none none]

end Model

end ApiOutline
