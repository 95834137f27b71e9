import ApiOutline.Record.Form

/-!
# Operations

An `Operation` is one request that can be made at an endpoint. Its role is what the request means
to the caller: the method itself, except for the reading and the removal of a whole collection,
which have roles of their own next to those of a single item.
-/

namespace ApiOutline

open Record (Checked Form Entry)

/-- One request that can be made at an endpoint. -/
structure Operation where
  endpoint : String
  method : String
  role : String
  operationId : String
  tags : Option (List String)
  description : Option String
  summary : Option String
  rateLimitGroup : Option String
  appPermission : Option String
  userPermission : Option String
  withParameter : Bool
  responseSchema : Option (List (String × Value))
  queryParameters : Option String
  bodyParameters : Option String
  formUrlEncoded : Option Bool
  multipart : Option Bool
  deriving Inhabited

namespace Operation

/-- An optional member with two spellings. -/
private def unset {α : Type} (ms : Members) (name : String) (others : List String)
    (read : Value → Checked α) : Checked (Option α) :=
  Record.optional ms name others none (Record.nullable read)

def read : Value → Checked Operation
  | .map _ ms =>
      Operation.mk
        <$> Record.required ms "endpoint" [] Record.text
        <*> Record.required ms "method" [] Record.text
        <*> Record.required ms "role" [] Record.text
        <*> Record.required ms "operationId" ["operation_id"] Record.text
        <*> unset ms "tags" [] (Record.listOf Record.text)
        <*> unset ms "description" [] Record.text
        <*> unset ms "summary" [] Record.text
        <*> unset ms "rateLimitGroup" ["rate_limit_group"] Record.text
        <*> unset ms "appPermission" ["app_permission"] Record.text
        <*> unset ms "userPermission" ["user_permission"] Record.text
        <*> Record.optional ms "withParameter" ["with_parameter"] false Record.truth
        <*> unset ms "responseSchema" ["response_schema"] (Record.mappingOf Record.anything)
        <*> unset ms "queryParameters" ["query_parameters"] Record.text
        <*> unset ms "bodyParameters" ["body_parameters"] Record.text
        <*> unset ms "formUrlEncoded" ["form_url_encoded"] Record.truth
        <*> unset ms "multipart" [] Record.truth
  | _ => .fault .notRecord

/-- Writes an operation. One whose response schema has no plain form cannot be written. -/
def write (form : Form) (op : Operation) : Option Value :=
  match Record.plainOption (op.responseSchema.map fun ms => .ofMembers (Record.members ms)) with
  | none => none
  | some schema =>
      some (form.write
        [.same "endpoint" (some (.str op.endpoint)), .same "method" (some (.str op.method)),
         .same "role" (some (.str op.role)),
         ⟨"operationId", "operation_id", some (.str op.operationId)⟩,
         .same "tags" (op.tags.map Record.texts), .same "description" (op.description.map .str),
         .same "summary" (op.summary.map .str),
         ⟨"rateLimitGroup", "rate_limit_group", op.rateLimitGroup.map .str⟩,
         ⟨"appPermission", "app_permission", op.appPermission.map .str⟩,
         ⟨"userPermission", "user_permission", op.userPermission.map .str⟩,
         ⟨"withParameter", "with_parameter", some (.bool op.withParameter)⟩,
         ⟨"responseSchema", "response_schema", schema⟩,
         ⟨"queryParameters", "query_parameters", op.queryParameters.map .str⟩,
         ⟨"bodyParameters", "body_parameters", op.bodyParameters.map .str⟩,
         ⟨"formUrlEncoded", "form_url_encoded", op.formUrlEncoded.map .bool⟩,
         .same "multipart" (op.multipart.map .bool)])

/-- How deep the response schema of an operation is nested. -/
def nesting (op : Operation) : Nat :=
  op.responseSchema.elim 0 fun ms => Value.deepest (ms.map fun m => m.2.nesting)

end Operation

end ApiOutline
