import ApiOutline.Definition.Operation
import ApiOutline.Proofs.Record.Checked
import ApiOutline.Proofs.Value.Members

/-!
# Definitions without a response

A definition may be unreadable in many ways, and one of them has an error of
its own: it declares none of the responses that are looked for. This file
tells that way from the others. If all parts of a definition are well-typed,
whatever responses it declares, then its operation can be read exactly if one
of the keys has a value (`operation_isOk`), and otherwise the one failure is
that of the missing response (`operation_eq_missingResponse`).
-/

namespace ApiOutline.Definition

open Record (Checked)

/-! ## Looking for a response -/

/-- The keys under which a response counts: a status is written as a text or as a number. -/
def responseKeys : List Value :=
  [.str "200", .int 200, .str "201", .int 201, .str "202", .int 202, .str "204", .int 204,
    .str "205", .int 205, .str "302", .int 302, .str "501", .int 501, .str "default"]

theorem priority_flatMap_keys : Status.priority.flatMap Status.keys = responseKeys := rfl

/-- Whether there is a value under a key. Null is none. -/
def isDeclared (responses : Members) (key : Value) : Bool :=
  match Members.get? responses key with
  | none | some .null => false
  | some _ => true

theorem chosen_eq_none {responses : Members}
    (h : responseKeys.any (isDeclared responses) = false) : Response.chosen responses = none := by
  rw [Response.chosen, priority_flatMap_keys, Response.firstUnder, List.findSome?_eq_none_iff]
  intro key hkey
  have hnot := List.any_eq_false.1 h key hkey
  unfold isDeclared at hnot
  split at hnot
  · next hnone => rw [hnone]
  · next hnull => rw [hnull]
  · exact absurd rfl hnot

theorem chosen_isSome {responses : Members}
    (h : responseKeys.any (isDeclared responses) = true) :
    ∃ key ∈ responseKeys, ∃ response, Members.get? responses key = some response ∧
      Response.chosen responses = some response := by
  rw [Response.chosen, priority_flatMap_keys]
  cases hfound : Response.firstUnder responses responseKeys with
  | none =>
      exfalso
      rw [Response.firstUnder] at hfound
      obtain ⟨key, hkey, hdeclared⟩ := List.any_eq_true.1 h
      have hnone := List.findSome?_eq_none_iff.1 hfound key hkey
      unfold isDeclared at hdeclared
      split at hdeclared
      · cases hdeclared
      · cases hdeclared
      · next v hv hget =>
          rw [hget] at hnone
          cases v <;> simp_all
  | some response =>
      rw [Response.firstUnder] at hfound
      obtain ⟨key, hkey, hget⟩ := List.exists_of_findSome?_eq_some hfound
      refine ⟨key, hkey, response, ?_, rfl⟩
      split at hget
      · cases hget
      · exact hget

/-- The responses that a definition declares. -/
def responses (definition : Members) : Members :=
  (Members.find definition "responses").membersOrNil

/-- Whether a value defines an operation that none of the responses looked for is declared for. -/
def lacksResponse : Value → Bool
  | .map _ definition =>
      !isDeprecated definition && !responseKeys.any (isDeclared (responses definition))
  | _ => false

/-! ## Definitions that are well-typed -/

/-- The members of a definition that hold a text or nothing. -/
def textKeys : List String :=
  ["description", "summary", "x-throttling-group", "x-app-permission", "x-user-permission"]

/-- Whether each part of a definition can be read, and the response that counts if there is one. -/
structure IsWellTyped (definition : Members) : Prop where
  operationId : Checked.IsAccepted (Record.text (operationId definition))
  tags : Checked.IsAccepted
    (Record.nullable (Record.listOf Record.text) (Members.find definition "tags"))
  texts : ∀ key ∈ textKeys,
    Checked.IsAccepted (Record.nullable Record.text (Members.find definition key))
  body : ∃ body, Body.ofRequest ((Definition.operationId definition).display ++ "Request")
    (Members.find definition "requestBody") = .ok body
  parameters : ∃ parameters, (Members.find definition "parameters").mappingsIfAny = .ok parameters
  declared : ∃ ms, (Members.find definition "responses").membersIfAny = .ok ms
  chosen : ∀ response, Response.chosen (responses definition) = some response →
    ∃ schema, Response.schema response = .ok schema ∧
      Checked.IsAccepted (Record.nullable (Record.mappingOf Record.anything)
        (schema.elim .null Value.ofMembers))

variable {definition : Members} {endpoint method : String}

theorem record_isAccepted (h : IsWellTyped definition) {schema : Option Members}
    (hschema : Checked.IsAccepted (Record.nullable (Record.mappingOf Record.anything)
      (schema.elim .null Value.ofMembers))) (body : Body) (query : Option String) :
    Checked.IsAccepted
      (record endpoint method (operationId definition) definition body schema query) := by
  have htext := h.texts
  simp only [textKeys, List.forall_mem_cons] at htext
  obtain ⟨hdescription, hsummary, hgroup, happ, huser, -⟩ := htext
  have hid := (h.operationId.under (.member "operation_id")).map
    fun operationId tags description summary rateLimitGroup appPermission userPermission schema =>
      (⟨endpoint, method, method, operationId, tags, description, summary, rateLimitGroup,
        appPermission, userPermission, Template.isParameterized endpoint, schema, query,
        body.model, body.formUrlEncoded, body.multipart⟩ : Operation)
  exact (((((((hid.seq (h.tags.under _)).seq (hdescription.under _)).seq
    (hsummary.under _)).seq (hgroup.under _)).seq (happ.under _)).seq
    (huser.under _)).seq (hschema.under _))

theorem queryModel_isOk (h : IsWellTyped definition) (id : String) :
    ∃ query, queryModel definition id = .ok query := by
  obtain ⟨parameters, hparameters⟩ := h.parameters
  rw [queryModel, hparameters]
  exact ⟨_, rfl⟩

/-- The response that counts decides how its schema is read. -/
theorem responseSchema_eq
    (h : ∃ ms, (Members.find definition "responses").membersIfAny = .ok ms) :
    responseSchema definition endpoint method =
      match Response.chosen (responses definition) with
      | none => .error (.spec (.missingResponse endpoint method))
      | some response => Response.schema response := by
  obtain ⟨ms, hms⟩ := h
  rw [responses, ← Value.eq_membersOrNil hms, responseSchema, hms]
  rfl

/-- The operation of a well-typed definition with a response can be read. -/
theorem operation_isOk (h : IsWellTyped definition)
    (hdeclared : responseKeys.any (isDeclared (responses definition)) = true) :
    ∃ op, operation endpoint method definition = .ok op := by
  obtain ⟨_, _, response, _, hchosen⟩ := chosen_isSome hdeclared
  obtain ⟨schema, hschema, haccepted⟩ := h.chosen response hchosen
  obtain ⟨body, hbody⟩ := h.body
  obtain ⟨query, hquery⟩ := queryModel_isOk h (operationId definition).display
  have hread : responseSchema definition endpoint method = .ok schema := by
    rw [responseSchema_eq h.declared, hchosen]
    exact hschema
  have hrecord : Checked.IsAccepted
      (record endpoint method (operationId definition) definition body schema query) :=
    record_isAccepted h haccepted body query
  obtain ⟨op, hop⟩ := hrecord
  refine ⟨op, ?_⟩
  show (_ >>= _) = _
  rw [hbody, hread, hquery]
  show checked _ _ = _
  rw [hop]
  rfl

/-- Without one it cannot, and nothing else is wrong. -/
theorem operation_eq_missingResponse (h : IsWellTyped definition)
    (hnone : responseKeys.any (isDeclared (responses definition)) = false) :
    operation endpoint method definition = .error (.spec (.missingResponse endpoint method)) := by
  obtain ⟨body, hbody⟩ := h.body
  have hread : responseSchema definition endpoint method =
      .error (.spec (.missingResponse endpoint method)) := by
    rw [responseSchema_eq h.declared, chosen_eq_none hnone]
  show (_ >>= _) = _
  rw [hbody, hread]
  rfl

end ApiOutline.Definition
