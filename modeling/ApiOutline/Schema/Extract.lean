import ApiOutline.Definition.Operation
import ApiOutline.Schema.Model

/-!
# All models of a document

The models of a document are those of its named schemas, the attachment model, and for every
operation the model of its form and the model that bundles its query parameters, if it has them.

A form without a description gets one that names its operation. Where one schema stands in several
places of a document, all of them see that description, and the operation that comes first gives
it. The writes made so far are therefore handed on from operation to operation.

The free values of a field are places of the document as well. A schema that stands in one of them
may be written to after the field has been made, so the writes are also handed back, to the models
made before them.
-/

namespace ApiOutline.Schema

/-- The methods under which a path item holds operations. -/
def httpMethods : List String :=
  ["get", "put", "post", "delete", "options", "head", "patch", "trace"]

/-- An operation of a document and where it stands. -/
structure Site where
  template : Value
  method : String
  definition : Value

/-- Descriptions written into shared mappings. -/
abbrev Writes := List (Nat × String)

/-- A value after some writes. -/
def Writes.apply (ws : Writes) (v : Value) : Value :=
  ws.foldl (fun v w => v.writeAt w.1 "description" w.2) v

/-- The operations of one path item. -/
def sitesOf (template : Value) (item : Value) : List Site :=
  match item with
  | .map _ ms =>
      ms.filterMap fun m =>
        match m.1, m.2 with
        | .str method, .map c definition =>
            if httpMethods.contains method then some ⟨template, method, .map c definition⟩ else none
        | _, _ => none
  | _ => []

/-- The operations of all path items, in order. -/
def sites (paths : Members) : List Site :=
  paths.flatMap fun m => sitesOf m.1 m.2

/-- The media type of a form among the media types of a body. A plain form goes first. -/
def formMedia (content : Members) : Value :=
  let plain := Members.find content Definition.formMediaType
  if plain.isTruthy then plain else Members.find content Definition.multipartMediaType

/-- The schema of a form that is written out in place. -/
def inlineForm (definition : Members) : Except Failure (Option (Option Nat × Members)) := do
  let body ← (Members.find definition "requestBody").membersIfAny
  let content ← (Members.find body "content").membersIfAny
  match formMedia content with
  | .map _ mediaType =>
      match Members.find mediaType "schema" with
      | .map c schema =>
          return if Members.has schema (.str "properties") then some (c, schema) else none
      | _ => return none
  | _ => return none

/-- The description of the form of an operation that has none of its own. -/
def formDescription (operationId : Value) : String :=
  "Request body for operation " ++ operationId.display

/-- The model of an operation's form, and what had to be written into its schema. -/
def formModel (definition : Members) (operationId : Value) :
    Except Failure (Option Model × Writes) := do
  match ← inlineForm definition with
  | none => return (none, [])
  | some (c, schema) =>
      let name ← Naming.modelName operationId "Request"
      if (Members.find schema "description").isTruthy then
        return (some (← toModel (.str name) (.ofMembers schema)), [])
      else
        let text := formDescription operationId
        let described := Members.set schema "description" (.str text)
        let model ← toModel (.str name) (.ofMembers described)
        return (some model, c.toList.map fun c => (c, text))

/-- The query parameters among the parameters of an operation. -/
def queryParameters (parameters : List Members) : List Members :=
  parameters.filter fun p => (Members.find p "in").isStr "query"

/-- The property that a query parameter becomes: what its schema says goes before what it says
itself. -/
def parameterProperty (parameter : Members) : Except Failure Members := do
  let schema := Members.find parameter "schema"
  let own ←
    match schema with
    | .map _ ms => pure ms
    | v => if v.isTruthy then throw .wrongKind else pure []
  return Members.erase (Members.erase (Members.overlay parameter own) "in") "schema"

/-- The properties that query parameters become. Of two with one name the later one counts. -/
def parameterProperties : List Members → Members → Except Failure Members
  | [], done => .ok done
  | p :: rest, done => do
      let property ← parameterProperty p
      match Members.find? p "name" with
      | none => throw .missingMember
      | some name =>
          if name.isKey then parameterProperties rest (Members.put done name (.ofMembers property))
          else throw .wrongKind

/-- The names of the query parameters that are required. -/
def requiredNames (parameters : List Members) : List Value :=
  (parameters.filter fun p => (Members.find p "required").isTrue).map fun p => Members.find p "name"

/-- The schema that bundles query parameters. -/
def querySchema (operationId : Value) (parameters : List Members) : Except Failure Members := do
  let properties ← parameterProperties parameters []
  return [(.str "description", .str ("Query parameters for operation " ++ operationId.display)),
    (.str "properties", .ofMembers properties),
    (.str "required", .list (requiredNames parameters))]

/-- The model that bundles the query parameters of an operation. -/
def queryModel (definition : Members) (operationId : Value) : Except Failure (Option Model) := do
  match queryParameters (← (Members.find definition "parameters").mappingsIfAny) with
  | [] => return none
  | parameters =>
      let schema ← querySchema operationId parameters
      let name ← Naming.modelName operationId "Parameters"
      return some (← toModel (.str name) (.ofMembers schema))

/-- The models of one operation, and the writes made for the operations after it. -/
def modelsOf (definition : Value) (operationId : Value) : Except Failure (List Model × Writes) := do
  let (form, writes) ← formModel (← definition.members) operationId
  let query ← queryModel (← (Writes.apply writes definition).members) operationId
  return (form.toList ++ query.toList, writes)

/-- Models made before some writes, as they are afterwards. -/
def Writes.settle (later : Writes) (models : List Model) : List Model :=
  models.map (Model.mapFree later.apply)

/-- The models of operations, in order, after some writes, and the writes made for these models. An
operation without an id has no models, and a warning says so. -/
def operationModels : Writes → List Site → Logged (List Model × Writes)
  | _, [] => pure ([], [])
  | ws, s :: rest => do
      let definition := ws.apply s.definition
      let operationId := Members.find (← Logged.ofExcept definition.members) "operationId"
      if operationId.isTruthy then
        let (models, writes) ← Logged.ofExcept (modelsOf definition operationId)
        let (others, later) ← operationModels (ws ++ writes) rest
        return (later.settle models ++ others, writes ++ later)
      else
        Logged.note (.unnamed s.method s.template.display)
        operationModels ws rest

/-- The models of named schemas. -/
def namedModels : Members → Except Failure (List Model)
  | [] => .ok []
  | m :: rest => do
      let model ← toModel m.1 m.2
      return model :: (← namedModels rest)

/-- The named schemas of a document. -/
def namedSchemas (document : Members) : Except Failure Members := do
  let components ← (Members.find document "components").membersIfAny
  (Members.find components "schemas").membersIfAny

/-- All models of a document. -/
def models (document : Value) : Logged (List Model) := do
  let ms ← Logged.ofExcept document.members
  let named ← Logged.ofExcept (namedModels (← Logged.ofExcept (namedSchemas ms)))
  let paths ← Logged.ofExcept (Members.find ms "paths").membersIfAny
  let (found, writes) ← operationModels [] (sites paths)
  return writes.settle named ++ Model.attachment :: found

end ApiOutline.Schema
