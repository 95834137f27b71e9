import ApiOutline.Naming
import ApiOutline.Value.Access

/-!
# Request bodies

A request body lists the media types it can be sent in. A form, plain or in parts, is named after
the schema its media type refers to; any other body takes the name of the first media type's
schema, with a small first letter. A body whose schema is written out in place is named after the
operation.
-/

namespace ApiOutline.Definition

/-- The media type of a plain form. -/
def formMediaType : String := "application/x-www-form-urlencoded"

/-- The media type of a form in parts. -/
def multipartMediaType : String := "multipart/form-data"

/-- What an operation says about its body. -/
structure Body where
  formUrlEncoded : Option Bool
  multipart : Option Bool
  model : Option String
  deriving Repr, DecidableEq

namespace Body

/-- No body at all. -/
def absent : Body := ⟨none, none, none⟩

/-- A body that is no form. -/
def other (model : String) : Body := ⟨none, none, some model⟩

/-- The reference in the schema of a media type, null where there is none. -/
def schemaRef (mediaType : Value) : Value :=
  match mediaType with
  | .map _ ms =>
      match Members.find ms "schema" with
      | .map _ schema => Members.find schema "$ref"
      | _ => .null
  | _ => .null

/-- The name that the schema of a media type gives to a body, if it refers to one. -/
def referredName (mediaType : Value) : Except Failure (Option String) :=
  let ref := schemaRef mediaType
  if ref.isTruthy then (Naming.refNameOf ref).map some else .ok none

/-- What is found under a media type in the content of a body. A content that is a text or a list
may mention a media type, but has nothing under it. -/
def inContent (content : Value) (mediaType : String) : Except Failure (Option Value) :=
  match content with
  | .map _ ms => .ok (Members.find? ms mediaType)
  | _ => do if ← content.mentions mediaType then throw .wrongKind else return none

/-- A form whose schema may be referred to. -/
def form (formUrlEncoded multipart : Option Bool) (inlineName : String) (mediaType : Value) :
    Except Failure Body := do
  let name ← referredName mediaType
  return ⟨formUrlEncoded, multipart, some (name.getD inlineName)⟩

/-- A body that is no form, by the first of its media types. -/
def ofFirst (inlineName : String) (content : Value) : Except Failure Body := do
  match ← content.members with
  | [] => return other inlineName
  | (_, mediaType) :: _ =>
      let name ← referredName mediaType
      return other ((name.map Naming.lowerFirst).getD inlineName)

/-- The body that some content describes. -/
def ofContent (inlineName : String) (content : Value) : Except Failure Body := do
  match ← inContent content formMediaType with
  | some mediaType => form (some true) none inlineName mediaType
  | none =>
      match ← inContent content multipartMediaType with
      | some mediaType => form none (some true) inlineName mediaType
      | none => ofFirst inlineName content

/-- The body of a request, whose name is `inlineName` where it refers to no schema. -/
def ofRequest (inlineName : String) (request : Value) : Except Failure Body :=
  if request.isTruthy then do
    let content := Members.find (← request.members) "content"
    if content.isTruthy then ofContent inlineName content else return other inlineName
  else .ok absent

end Body

end ApiOutline.Definition
