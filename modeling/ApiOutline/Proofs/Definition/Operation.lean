import ApiOutline.Definition.Operation
import ApiOutline.Proofs.Record.Checked

/-!
# What an extracted operation says of itself

An operation that is read from its definition knows the endpoint and the
method it was read for, and its role is that method: roles of another kind
are given by the merge alone.
-/

namespace ApiOutline.Definition

open Record (Checked)

/-- What a record says about where it was read. -/
structure IsRecordOf (op : Operation) (endpoint method : String) : Prop where
  endpoint_eq : op.endpoint = endpoint
  method_eq : op.method = method
  role_eq : op.role = method
  withParameter_eq : op.withParameter = Template.isParameterized endpoint

/-- A record holds what its parts are read as, and what was worked out before. -/
theorem record_accepted {endpoint method : String} {id : Value} {definition : Members}
    {body : Body} {schema : Option Members} {query : Option String} {op : Operation}
    (h : record endpoint method id definition body schema query = .accepted op) :
    ∃ name tags description summary rateLimitGroup appPermission userPermission responseSchema,
      Record.text id = .accepted name ∧
      Record.nullable (Record.mappingOf Record.anything) (schema.elim .null Value.ofMembers) =
        .accepted responseSchema ∧
      op = ⟨endpoint, method, method, name, tags, description, summary, rateLimitGroup,
        appPermission, userPermission, Template.isParameterized endpoint, responseSchema, query,
        body.model, body.formUrlEncoded, body.multipart⟩ := by
  unfold record at h
  obtain ⟨_, _, h, hschema, h7⟩ := Checked.both_eq_accepted h
  obtain ⟨_, _, h, _, h6⟩ := Checked.both_eq_accepted h
  obtain ⟨_, _, h, _, h5⟩ := Checked.both_eq_accepted h
  obtain ⟨_, _, h, _, h4⟩ := Checked.both_eq_accepted h
  obtain ⟨_, _, h, _, h3⟩ := Checked.both_eq_accepted h
  obtain ⟨_, _, h, _, h2⟩ := Checked.both_eq_accepted h
  obtain ⟨_, _, h, _, h1⟩ := Checked.both_eq_accepted h
  obtain ⟨name, hname, h0⟩ := Checked.map_eq_accepted h
  subst h0 h1 h2 h3 h4 h5 h6 h7
  exact ⟨name, _, _, _, _, _, _, _, Checked.under_eq_accepted hname,
    Checked.under_eq_accepted hschema, rfl⟩

/-- An operation that is read is the record of its endpoint and its method. -/
theorem operation_ok {endpoint method : String} {definition : Members} {op : Operation}
    (h : operation endpoint method definition = .ok op) :
    IsRecordOf op endpoint method := by
  obtain ⟨body, _, h⟩ := bind_eq_ok.1 h
  obtain ⟨schema, _, h⟩ := bind_eq_ok.1 h
  obtain ⟨query, _, h⟩ := bind_eq_ok.1 h
  obtain ⟨_, _, _, _, _, _, _, _, _, _, rfl⟩ := record_accepted (checked_eq_ok h)
  exact ⟨rfl, rfl, rfl, rfl⟩

/-- An operation that is read takes its id, its body and its query model from the definition. -/
theorem operation_parts {endpoint method : String} {definition : Members} {op : Operation}
    (h : operation endpoint method definition = .ok op) :
    Record.text (operationId definition) = .accepted op.operationId ∧
    Body.ofRequest ((operationId definition).display ++ "Request")
        (Members.find definition "requestBody") =
      .ok ⟨op.formUrlEncoded, op.multipart, op.bodyParameters⟩ ∧
    queryModel definition (operationId definition).display = .ok op.queryParameters := by
  obtain ⟨body, hbody, h⟩ := bind_eq_ok.1 h
  obtain ⟨schema, _, h⟩ := bind_eq_ok.1 h
  obtain ⟨query, hquery, h⟩ := bind_eq_ok.1 h
  obtain ⟨_, _, _, _, _, _, _, _, hid, _, rfl⟩ := record_accepted (checked_eq_ok h)
  exact ⟨hid, hbody, hquery⟩

/-- The response schema is read again as a mapping from texts. -/
theorem operation_schema {endpoint method : String} {definition : Members} {op : Operation}
    (h : operation endpoint method definition = .ok op) :
    ∃ schema, responseSchema definition endpoint method = .ok schema ∧
      Record.nullable (Record.mappingOf Record.anything) (schema.elim .null Value.ofMembers) =
        .accepted op.responseSchema := by
  obtain ⟨body, _, h⟩ := bind_eq_ok.1 h
  obtain ⟨schema, hschema, h⟩ := bind_eq_ok.1 h
  obtain ⟨query, _, h⟩ := bind_eq_ok.1 h
  obtain ⟨_, _, _, _, _, _, _, _, _, hread, rfl⟩ := record_accepted (checked_eq_ok h)
  exact ⟨schema, hschema, hread⟩

/-- An operation that is found for a method has a mapping for its definition. -/
theorem ofDefinition?_some {methods : List String} {endpoint method : String} {definition : Value}
    {op : Operation}
    (h : (Operation.ofDefinition? methods endpoint method definition).result = .ok (some op)) :
    ∃ cell ms, definition = .map cell ms ∧ operation endpoint method ms = .ok op := by
  unfold Operation.ofDefinition? at h
  split at h
  · next cell ms =>
      split at h
      · refine ⟨cell, ms, rfl, ?_⟩
        rw [Logged.result_bind] at h
        cases hop : operation endpoint method ms with
        | error e => rw [hop] at h; cases h
        | ok op' => rw [hop] at h; cases h; rfl
      · cases h
  · cases h

/-- Which other methods are asked for has no say in what is found. -/
theorem ofDefinition?_congr {methods methods' : List String} {method : String}
    (h : (Operation.asked methods).contains method = (Operation.asked methods').contains method)
    (endpoint : String) (definition : Value) :
    Operation.ofDefinition? methods endpoint method definition =
      Operation.ofDefinition? methods' endpoint method definition := by
  unfold Operation.ofDefinition?
  rw [h]

end ApiOutline.Definition
