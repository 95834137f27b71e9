import ApiOutline.Record.Scalar
import ApiOutline.Value.Plain

/-!
# Writing records

A record is written as a mapping with one member per field, in the order of the fields. The
published form names the fields as readers of the output expect them and leaves unset fields out;
the complete form uses the names of the settings files and keeps every field.
-/

namespace ApiOutline.Record

/-- Which names are used, and whether unset fields appear. -/
inductive Form where
  | published
  | complete
  deriving Repr, DecidableEq

/-- A field to write: its published name, its own name, and its value unless it is unset. -/
structure Entry where
  published : String
  name : String
  value : Option Value

/-- A field whose two names agree. -/
def Entry.same (name : String) (value : Option Value) : Entry := ⟨name, name, value⟩

/-- The member that a field becomes. -/
def Form.member (form : Form) (e : Entry) : Option (Value × Value) :=
  match form, e.value with
  | .published, none => none
  | .published, some v => some (.str e.published, v)
  | .complete, none => some (.str e.name, .null)
  | .complete, some v => some (.str e.name, v)

/-- The mapping that a record becomes. -/
def Form.write (form : Form) (entries : List Entry) : Value :=
  .ofMembers (entries.filterMap form.member)

/-- The value of a number, of whichever kind. -/
def Number.value : Number → Value
  | .int n => .int n
  | .float x => .float x

/-- The value of a mapping from texts to texts. -/
def textMembers (ms : List (String × String)) : Value :=
  .ofMembers (Members.ofList (ms.map fun m => (.str m.1, .str m.2)))

/-- The value of a list of texts. -/
def texts (ss : List String) : Value :=
  .list (ss.map .str)

/-- The members of a mapping from texts. -/
def members (ms : List (String × Value)) : Members :=
  ms.map fun m => (.str m.1, m.2)

/-- An optional plain value: unset stays unset, a value without a plain form makes the whole
fail. -/
def plainOption : Option Value → Option (Option Value)
  | none => some none
  | some v => v.plain.map some

end ApiOutline.Record
