import ApiOutline.Definition.Body
import ApiOutline.Definition.Response
import ApiOutline.Journal
import ApiOutline.Settings
import ApiOutline.Template

/-!
# Operations from their definitions

A path item defines an operation for each of its methods. `Operation.ofDefinition?` makes the
record of one: nothing for a method that is not asked for, for what is no definition at all and for
a deprecated one, and a failure for a definition without a usable response.
-/

namespace ApiOutline

open Record (Checked)

namespace Definition

/-- Whether an operation takes a parameter in the query. -/
def hasQuery (parameters : List Members) : Bool :=
  parameters.any fun p => (Members.find p "in").isStr "query"

/-- The name of the model that bundles the query parameters of an operation, if it takes any. -/
def queryModel (definition : Members) (operationId : String) : Except Failure (Option String) := do
  let parameters ← (Members.find definition "parameters").mappingsIfAny
  return if hasQuery parameters then some (operationId ++ "Parameters") else none

/-- The schema of the response that counts. -/
def responseSchema (definition : Members) (endpoint method : String) :
    Except Failure (Option Members) := do
  match Response.chosen (← (Members.find definition "responses").membersIfAny) with
  | none => throw (.spec (.missingResponse endpoint method))
  | some response => Response.schema response

/-- A part of a definition that may be null. -/
private def part {α : Type} (definition : Members) (key name : String)
    (read : Value → Checked α) : Checked (Option α) :=
  (Record.nullable read (Members.find definition key)).under (.member name)

/-- The record of an operation: what the definition says in so many words has to be of the right
kind, the rest was worked out before. -/
def record (endpoint method : String) (operationId : Value) (definition : Members) (body : Body)
    (schema : Option Members) (query : Option String) : Checked Operation :=
  (fun operationId tags description summary rateLimitGroup appPermission userPermission schema =>
      ⟨endpoint, method, method, operationId, tags, description, summary, rateLimitGroup,
        appPermission, userPermission, Template.isParameterized endpoint, schema, query,
        body.model, body.formUrlEncoded, body.multipart⟩)
    <$> (Record.text operationId).under (.member "operation_id")
    <*> part definition "tags" "tags" (Record.listOf Record.text)
    <*> part definition "description" "description" Record.text
    <*> part definition "summary" "summary" Record.text
    <*> part definition "x-throttling-group" "rate_limit_group" Record.text
    <*> part definition "x-app-permission" "app_permission" Record.text
    <*> part definition "x-user-permission" "user_permission" Record.text
    <*> (Record.nullable (Record.mappingOf Record.anything)
          (schema.elim .null Value.ofMembers)).under (.member "response_schema")

/-- The id of an operation as it is written, and an empty text where there is none. -/
def operationId (definition : Members) : Value :=
  (Members.find? definition "operationId").getD (.str "")

/-- The operation that a definition describes. -/
def operation (endpoint method : String) (definition : Members) : Except Failure Operation := do
  let id := operationId definition
  let body ← Body.ofRequest (id.display ++ "Request") (Members.find definition "requestBody")
  let schema ← responseSchema definition endpoint method
  let query ← queryModel definition id.display
  checked .operation (record endpoint method id definition body schema query)

/-- Whether a definition is to be passed over. -/
def isDeprecated (definition : Members) : Bool :=
  (Members.find definition "deprecated").isTrue

end Definition

/-- The methods that are asked for: those that are named, or the usual ones where none is. -/
def Operation.asked (methods : List String) : List String :=
  if methods.isEmpty then Conventions.defaultMethods else methods

theorem Operation.asked_of_mem {methods : List String} {method : String} (h : method ∈ methods) :
    asked methods = methods := by
  rw [asked, List.isEmpty_eq_false_iff_exists_mem.2 ⟨method, h⟩]
  rfl

/-- The operation of one method at an endpoint, if the method is among those asked for and has a
definition that is not deprecated. -/
def Operation.ofDefinition? (methods : List String) (endpoint method : String)
    (definition : Value) : Logged (Option Operation) :=
  match definition with
  | .map _ ms =>
      if (asked methods).contains method && !Definition.isDeprecated ms then do
        Logged.note (.operation method endpoint)
        some <$> Logged.ofExcept (Definition.operation endpoint method ms)
      else pure none
  | _ => pure none

end ApiOutline
