import ApiOutline.Naming
import ApiOutline.Value.Access

/-!
# Properties of a schema

Before a property is read as a field it is brought into shape: references are shortened to the name
they point at, binary content becomes a reference to the attachment model, of several types the
first that is not null is kept, and a list of required names, which belongs to a nested schema, is
left out. The same is done for the elements of an array, at every depth.
-/

namespace ApiOutline.Schema

/-- The model that binary content refers to. -/
def attachmentName : String := "Attachment"

/-- Shortens a reference. -/
def shortenRef (ms : Members) : Except Failure Members :=
  match Members.find? ms "$ref" with
  | none => .ok ms
  | some ref => do return Members.set ms "$ref" (.str (← Naming.refNameOf ref))

/-- Whether a property is binary content. -/
def isBinary (ms : Members) : Bool :=
  (Members.find ms "type").isStr "file" ||
    ((Members.find ms "type").isStr "string" && (Members.find ms "format").isStr "binary")

/-- Replaces binary content by a reference to the attachment model. -/
def replaceBinary (ms : Members) : Members :=
  if isBinary ms then
    Members.erase (Members.erase (Members.set ms "$ref" (.str attachmentName)) "type") "format"
  else ms

/-- Keeps of several types the first that is not null. -/
def chooseType (ms : Members) : Members :=
  match Members.find ms "type" with
  | .list types =>
      Members.set ms "type" ((types.find? fun t => !t.isStr "null").getD .null)
  | _ => ms

/-- Leaves out a `required` that is no truth value. -/
def dropRequired (ms : Members) : Members :=
  match Members.find? ms "required" with
  | none | some (.bool _) => ms
  | some _ => Members.erase ms "required"

/-- A property in shape, its elements aside. -/
def shape (ms : Members) : Except Failure Members := do
  return dropRequired (chooseType (replaceBinary (← shortenRef ms)))

mutual

/-- The elements of a property in shape, if one of the members holds them. -/
def elementsOf : List (Value × Value) → Except Failure (Option Value)
  | [] => .ok none
  | (k, v) :: rest =>
      if k.sameKey (.str "items") then
        match v with
        | .map _ ms => do return some (.map none (← normalize ms))
        | _ => .ok none
      else elementsOf rest

/-- A property in shape. -/
def normalize (ms : List (Value × Value)) : Except Failure Members := do
  let shaped ← shape ms
  match ← elementsOf ms with
  | none => return shaped
  | some items => return Members.set shaped "items" items

end

end ApiOutline.Schema
