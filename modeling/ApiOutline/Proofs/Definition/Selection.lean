import ApiOutline.Proofs.Definition.Operation
import ApiOutline.Proofs.Definition.Response
import ApiOutline.Proofs.Record.Form
import Mathlib.Data.List.Forall2

/-!
# The response that counts

Of all the responses that a definition declares, an operation shows one. It is
the one under the first key in a fixed order that has any (`IsFirst`), whether
or not there is something in it: an empty response has no content, and so the
operation shows no schema, but the search is over. The schema that is shown is
the one in the first media type of the content, as it is written there but for
its own reference (`Shows`).

Nothing else that is declared is looked at. Two mappings with the same first
response give the same operation (`operation_withResponses`), and to have the
same first response they only have to agree on the keys up to it.
-/

namespace ApiOutline

namespace Definition

open Record (Checked)

variable {definition ms : Members} {response : Value} {shown : Option (List (String × Value))}
  {before : List Value} {key : Value}

/-! ## The first response -/

/-- Whether a response is declared under a key, and none under the keys before it. -/
structure IsFirst (responses : Members) (before : List Value) (key response : Value) : Prop where
  listed : ∃ after, responseKeys = before ++ key :: after
  undeclared : ∀ k ∈ before, isDeclared responses k = false
  found : Members.get? responses key = some response
  declared : response ≠ .null

theorem isDeclared_congr {responses responses' : Members} {k : Value}
    (h : Members.get? responses' k = Members.get? responses k) :
    isDeclared responses' k = isDeclared responses k := by
  rw [isDeclared, isDeclared, h]

/-- What is declared under later keys has no say in which response is the first. -/
theorem IsFirst.of_agree {responses responses' : Members}
    (h : IsFirst responses before key response)
    (hagree : ∀ k ∈ before ++ [key], Members.get? responses' k = Members.get? responses k) :
    IsFirst responses' before key response := by
  rw [List.forall_mem_append] at hagree
  refine ⟨h.listed, fun k hk => ?_, ?_, h.declared⟩
  · rw [isDeclared_congr (hagree.1 k hk), h.undeclared k hk]
  · rw [hagree.2 key List.mem_cons_self, h.found]

theorem IsFirst.chosen_eq {responses : Members} (h : IsFirst responses before key response) :
    Response.chosen responses = some response := by
  obtain ⟨after, hkeys⟩ := h.listed
  rw [Response.chosen, priority_flatMap_keys, Response.firstUnder, List.findSome?_eq_some_iff]
  refine ⟨before, key, after, hkeys, ?_, fun k hk => ?_⟩
  · have hdeclared := h.declared
    rw [h.found]
    cases response with
    | null => exact absurd rfl hdeclared
    | _ => rfl
  · have hnone := h.undeclared k hk
    unfold isDeclared at hnone
    split at hnone
    · next hget => rw [hget]
    · next hget => rw [hget]
    · cases hnone

theorem IsFirst.any_isDeclared {responses : Members}
    (h : IsFirst responses before key response) :
    responseKeys.any (isDeclared responses) = true := by
  obtain ⟨after, hkeys⟩ := h.listed
  refine List.any_eq_true.2 ⟨key, ?_, ?_⟩
  · rw [hkeys]
    exact List.mem_append_right _ List.mem_cons_self
  · have hdeclared := h.declared
    rw [isDeclared, h.found]
    cases response with
    | null => exact absurd rfl hdeclared
    | _ => rfl

/-! ## What is shown of it -/

/-- The content of a response, null where it has none. -/
def Response.contentOf (response : Value) : Value :=
  Members.find response.membersOrNil "content"

/-- Whether a value stands for the schema in the first media type of a response. -/
def IsFirstSchema (response v : Value) : Prop :=
  ∃ c k media rest, Response.contentOf response = .map c ((k, media) :: rest) ∧
    Members.find media.membersOrNil "schema" = v

/-- Whether a member of a schema is shown as another one: as it is, unless it is the reference, of
which only what is behind the last slash is kept. -/
inductive IsShown : Value × Value → Value × Value → Prop
  | kept {m : Value × Value} (other : m.1 ≠ .str "$ref") : IsShown m m
  | shortened (ref : String) :
      IsShown (.str "$ref", .str ref) (.str "$ref", .str (Naming.refName ref))

/-- Whether this is what an operation shows of a response: nothing where the response has no content
or no mapping for its first schema, and else that schema, member by member. -/
inductive Shows (response : Value) : Option (List (String × Value)) → Prop
  | noContent (empty : (Response.contentOf response).isTruthy = false) : Shows response none
  | noSchema {v : Value} (first : IsFirstSchema response v) (other : v.isMap = false) :
      Shows response none
  | schema {c : Option Nat} {schema : Members} {shown : List (String × Value)}
      (first : IsFirstSchema response (.map c schema))
      (members : Members.Named schema → List.Forall₂ IsShown schema (Record.members shown)) :
      Shows response (some shown)

/-- Of an empty response nothing is shown. -/
theorem Shows.eq_none_of_empty {c : Option Nat} (h : Shows (.map c []) shown) : shown = none := by
  cases h with
  | noContent => rfl
  | noSchema => rfl
  | schema first =>
      obtain ⟨_, _, _, _, hcontent, -⟩ := first
      cases hcontent

theorem isShown_self (hnone : Members.find? ms "$ref" = none) : List.Forall₂ IsShown ms ms := by
  refine List.forall₂_same.2 fun m hm => .kept ?_
  intro hkey
  have hhas : Members.has ms (.str "$ref") = true :=
    Members.has_iff_mem.2 (List.mem_map.2 ⟨m, hm, hkey⟩)
  obtain ⟨v, hv⟩ := Members.has_str_iff.1 hhas
  rw [hnone] at hv
  cases hv

theorem isShown_set {ref : String} (hnamed : Members.Named ms)
    (hfound : Members.find? ms "$ref" = some (.str ref)) :
    List.Forall₂ IsShown ms (Members.set ms "$ref" (.str (Naming.refName ref))) := by
  induction ms with
  | nil => cases hfound
  | cons m rest ih =>
      obtain ⟨hkeys, hdistinct⟩ := hnamed
      rw [List.map_cons, List.nodup_cons] at hdistinct
      have hrest : Members.Named rest := ⟨(List.forall_mem_cons.1 hkeys).2, hdistinct.2⟩
      rw [Members.find?_cons] at hfound
      rw [Members.set, Members.put]
      split at hfound
      · next hsame =>
          rw [if_pos hsame]
          obtain ⟨k, v⟩ := m
          obtain rfl := Value.sameKey_str_iff.1 hsame
          cases hfound
          refine .cons (.shortened ref) (isShown_self ?_)
          -- The reference is there once, so the rest of the schema has none.
          cases hother : Members.find? rest "$ref" with
          | none => rfl
          | some v => exact absurd (List.mem_map_of_mem (Members.mem_of_find? hother)) hdistinct.1
      · next hsame =>
          rw [if_neg hsame]
          exact .cons (.kept fun hkey => hsame (Value.sameKey_str_iff.2 hkey)) (ih hrest hfound)

theorem isShown_of_shortened {schema : Members} (hnamed : Members.Named ms)
    (h : Response.shortened ms = .ok schema) : List.Forall₂ IsShown ms schema := by
  unfold Response.shortened at h
  split at h
  · next hnone =>
      cases h
      exact isShown_self hnone
  · next ref hfound =>
      obtain ⟨name, hname, h⟩ := bind_eq_ok.1 h
      cases h
      cases ref with
      | str ref =>
          cases hname
          exact isShown_set hnamed hfound
      | _ => cases hname

/-- A schema with a shortened reference has the keys that it had. -/
theorem isText_of_shortened {schema : Members} (hnamed : Members.Named ms)
    (h : Response.shortened ms = .ok schema) : ∀ m ∈ schema, m.1.isText = true := by
  unfold Response.shortened at h
  split at h
  · cases h
    exact hnamed.keys
  · obtain ⟨name, _, h⟩ := bind_eq_ok.1 h
    cases h
    exact (hnamed.put "$ref" (.str name)).keys

/-- Members that are asked for and not there stand in a value that is empty. -/
theorem isTruthy_of_membersIfAny_nil {v : Value} (h : v.membersIfAny = .ok []) :
    v.isTruthy = false := by
  rw [Value.membersIfAny] at h
  split at h
  · obtain ⟨c, rfl⟩ := Value.members_eq_ok h
    rfl
  · next hfalsy => exact Bool.eq_false_iff.2 hfalsy

/-- Members that are there stand in a mapping. -/
theorem eq_map_of_membersIfAny_cons {v : Value} {m : Value × Value} {rest : Members}
    (h : v.membersIfAny = .ok (m :: rest)) : ∃ c, v = .map c (m :: rest) := by
  rw [Value.membersIfAny] at h
  split at h
  · exact Value.members_eq_ok h
  · cases h

theorem isShown_of_read {c : Option Nat} {schema : Members} {read : List (String × Value)}
    (hnamed : Members.Named ms) (hshort : Response.shortened ms = .ok schema)
    (hread : Record.mappingOf Record.anything (.map c schema) = .accepted read) :
    List.Forall₂ IsShown ms (Record.members read) := by
  rw [Record.members_of_mappingOf (isText_of_shortened hnamed hshort) hread]
  exact isShown_of_shortened hnamed hshort

theorem Response.schema_eq (response : Value) :
    Response.schema response = ((Response.contentOf response).membersIfAny >>= fun content =>
      match content with
      | [] => pure none
      | (_, media) :: _ => media.membersIfAny >>= fun ms =>
          match Members.find ms "schema" with
          | .map _ ms => some <$> Response.shortened ms
          | _ => pure none) := by
  cases response <;> rfl

/-- What an operation shows of a response is read off its content. -/
theorem shows_of_schema {schema : Option Members} (h : Response.schema response = .ok schema)
    (hread : Record.nullable (Record.mappingOf Record.anything)
      (schema.elim .null Value.ofMembers) = .accepted shown) : Shows response shown := by
  rw [Response.schema_eq] at h
  obtain ⟨content, hcontent, h⟩ := bind_eq_ok.1 h
  cases content with
  | nil =>
      cases h
      cases hread
      exact .noContent (isTruthy_of_membersIfAny_nil hcontent)
  | cons m rest =>
      obtain ⟨k, media⟩ := m
      obtain ⟨c, hmap⟩ := eq_map_of_membersIfAny_cons hcontent
      obtain ⟨inner, hinner, h⟩ := bind_eq_ok.1 h
      rw [Value.eq_membersOrNil hinner] at h
      have hfirst : IsFirstSchema response (Members.find media.membersOrNil "schema") :=
        ⟨c, k, media, rest, hmap, rfl⟩
      generalize Members.find media.membersOrNil "schema" = v at hfirst h
      cases v with
      | map cell ms =>
          replace h : some <$> Response.shortened ms = .ok schema := h
          cases hshort : Response.shortened ms with
          | error e =>
              rw [hshort] at h
              cases h
          | ok short =>
              rw [hshort] at h
              cases h
              obtain ⟨read, hmapping, rfl⟩ := Checked.map_eq_accepted hread
              exact .schema hfirst fun hnamed => isShown_of_read hnamed hshort hmapping
      | _ =>
          cases h
          cases hread
          exact .noSchema hfirst rfl

/-! ## Other responses -/

/-- A definition with other members for its responses. -/
def withResponses (definition : Members) (c : Option Nat) (responses : Members) : Members :=
  Members.set definition "responses" (.map c responses)

section

variable (c : Option Nat) (others : Members) {name : String}

theorem find?_withResponses (hname : "responses" ≠ name) :
    Members.find? (withResponses definition c others) name = Members.find? definition name :=
  Members.find?_set_of_ne hname definition _

theorem find_withResponses (hname : "responses" ≠ name) :
    Members.find (withResponses definition c others) name = Members.find definition name :=
  Members.find_set_of_ne hname definition _

theorem responses_withResponses : responses (withResponses definition c others) = others := by
  rw [responses, withResponses, Members.find, Members.find?_set_self]
  rfl

/-- The record of an operation holds nothing of the responses but what is worked out before. -/
theorem record_withResponses (endpoint method : String) (id : Value) (body : Body)
    (schema : Option Members) (query : Option String) :
    record endpoint method id (withResponses definition c others) body schema query =
      record endpoint method id definition body schema query := by
  have hrecord : ∀ ms, record endpoint method id ms body schema query =
      (fun operationId tags description summary rateLimitGroup appPermission userPermission
          schema =>
          (⟨endpoint, method, method, operationId, tags, description, summary, rateLimitGroup,
            appPermission, userPermission, Template.isParameterized endpoint, schema, query,
            body.model, body.formUrlEncoded, body.multipart⟩ : Operation))
        <$> (Record.text id).under (.member "operation_id")
        <*> (Record.nullable (Record.listOf Record.text) (Members.find ms "tags")).under
          (.member "tags")
        <*> (Record.nullable Record.text (Members.find ms "description")).under
          (.member "description")
        <*> (Record.nullable Record.text (Members.find ms "summary")).under (.member "summary")
        <*> (Record.nullable Record.text (Members.find ms "x-throttling-group")).under
          (.member "rate_limit_group")
        <*> (Record.nullable Record.text (Members.find ms "x-app-permission")).under
          (.member "app_permission")
        <*> (Record.nullable Record.text (Members.find ms "x-user-permission")).under
          (.member "user_permission")
        <*> (Record.nullable (Record.mappingOf Record.anything)
          (schema.elim .null Value.ofMembers)).under (.member "response_schema") := fun _ => rfl
  have hfind : ∀ name, "responses" ≠ name → Members.find (withResponses definition c others) name =
      Members.find definition name := fun name hname => find_withResponses c others hname
  rw [hrecord, hrecord, hfind "tags" (by decide), hfind "description" (by decide),
    hfind "summary" (by decide), hfind "x-throttling-group" (by decide),
    hfind "x-app-permission" (by decide), hfind "x-user-permission" (by decide)]

/-- An operation depends on the responses through the one that is chosen. -/
theorem operation_withResponses (endpoint method : String)
    (hschema : responseSchema (withResponses definition c others) endpoint method =
      responseSchema definition endpoint method) :
    operation endpoint method (withResponses definition c others) =
      operation endpoint method definition := by
  have hid : operationId (withResponses definition c others) = operationId definition := by
    rw [operationId, find?_withResponses c others (by decide)]
    rfl
  have hquery : ∀ id,
      queryModel (withResponses definition c others) id = queryModel definition id := by
    intro id
    rw [queryModel, find_withResponses c others (by decide)]
    rfl
  have hbody : Members.find (withResponses definition c others) "requestBody" =
      Members.find definition "requestBody" := find_withResponses c others (by decide)
  unfold operation
  simp only [hid, hquery, hbody, hschema, record_withResponses]

theorem isDeprecated_withResponses :
    isDeprecated (withResponses definition c others) = isDeprecated definition := by
  rw [isDeprecated, find_withResponses c others (by decide)]
  rfl

end

/-! ## The operation -/

variable {methods : List String} {endpoint method : String} {cell : Option Nat}

theorem ofDefinition?_of_live (hmethod : method ∈ methods)
    (hlive : isDeprecated definition = false) :
    Operation.ofDefinition? methods endpoint method (.map cell definition) =
      (do
        Logged.note (.operation method endpoint)
        some <$> Logged.ofExcept (operation endpoint method definition)) := by
  have hasked : ((Operation.asked methods).contains method && !isDeprecated definition) = true := by
    rw [hlive, Bool.not_false, Bool.and_true, Operation.asked_of_mem hmethod,
      List.contains_iff_mem]
    exact hmethod
  exact if_pos hasked

/-- A response can only be the first of members, so there is nothing wrong with them. -/
theorem responseSchema_of_isFirst (hfirst : IsFirst (responses definition) before key response) :
    responseSchema definition endpoint method = Response.schema response := by
  have hmap : (Members.find definition "responses").isMap = true := by
    have hfound := hfirst.found
    rw [responses] at hfound
    cases hdeclared : Members.find definition "responses" with
    | map c ms => rfl
    | _ =>
        rw [hdeclared] at hfound
        cases hfound
  have hmembers : (Members.find definition "responses").membersIfAny =
      .ok (responses definition) := by
    rw [Value.membersIfAny_eq, Value.lacksMembers, hmap, Bool.not_true, Bool.and_false,
      if_neg Bool.false_ne_true, responses]
  rw [responseSchema_eq ⟨_, hmembers⟩, hfirst.chosen_eq]

/-- Behind the first response, others may be declared or not. -/
theorem ofDefinition?_withResponses {c : Option Nat} {others : Members}
    (hlive : isDeprecated definition = false) (hmethod : method ∈ methods)
    (hfirst : IsFirst (responses definition) before key response)
    (hagree : ∀ k ∈ before ++ [key], Members.get? others k =
      Members.get? (responses definition) k) :
    Operation.ofDefinition? methods endpoint method
        (.map cell (withResponses definition c others)) =
      Operation.ofDefinition? methods endpoint method (.map cell definition) := by
  have hlive' : isDeprecated (withResponses definition c others) = false := by
    rw [isDeprecated_withResponses, hlive]
  have hschema : responseSchema (withResponses definition c others) endpoint method =
      responseSchema definition endpoint method := by
    have hfirst' : IsFirst (responses (withResponses definition c others)) before key response := by
      rw [responses_withResponses]
      exact hfirst.of_agree hagree
    rw [responseSchema_of_isFirst hfirst, responseSchema_of_isFirst hfirst']
  rw [ofDefinition?_of_live hmethod hlive, ofDefinition?_of_live hmethod hlive',
    operation_withResponses c others endpoint method hschema]

/-- Of a well-typed definition that is not deprecated, the operation shows the first response that
is declared, and nothing if that one is empty. Whatever is declared under later keys or under others
makes no difference. -/
theorem first_response_decides_operation (endpoint : String) (cell : Option Nat)
    (hmethod : method ∈ methods) (hlive : isDeprecated definition = false)
    (hwell : IsWellTyped definition) (hfirst : IsFirst (responses definition) before key response) :
    ∃ op,
      (Operation.ofDefinition? methods endpoint method (.map cell definition)).result =
        .ok (some op) ∧
      Shows response op.responseSchema ∧
      (∀ c, response = .map c [] → op.responseSchema = none) ∧
      ∀ c others,
        (∀ k ∈ before ++ [key], Members.get? others k = Members.get? (responses definition) k) →
        Operation.ofDefinition? methods endpoint method
            (.map cell (withResponses definition c others)) =
          Operation.ofDefinition? methods endpoint method (.map cell definition) := by
  obtain ⟨op, hop⟩ : ∃ op, operation endpoint method definition = .ok op :=
    operation_isOk hwell hfirst.any_isDeclared
  obtain ⟨schema, hschema, hread⟩ := operation_schema hop
  rw [responseSchema_of_isFirst hfirst] at hschema
  have hshows : Shows response op.responseSchema := shows_of_schema hschema hread
  refine ⟨op, ?_, hshows, ?_, fun c others hagree =>
    ofDefinition?_withResponses hlive hmethod hfirst hagree⟩
  · rw [ofDefinition?_of_live hmethod hlive, Logged.result_bind, hop]
    rfl
  · rintro c rfl
    exact hshows.eq_none_of_empty

/-- A response with a reference that has a neighbour. -/
def createdResponse : Value :=
  .ofMembers [(.str "content", .ofMembers [(.str "application/json", .ofMembers [(.str "schema",
    .ofMembers [(.str "$ref", .str "#/components/schemas/Created"),
      (.str "nullable", .bool true)])])])]

/-- A definition that declares some responses. -/
def createDefinition (responses : Members) : Members :=
  [(.str "operationId", .str "create"), (.str "responses", .ofMembers responses)]

/-- Responses, of which one has a status that is written as a number. -/
def createResponses : Members :=
  [(.str "default", .ofMembers []), (.int 201, createdResponse), (.str "201", .null)]

theorem isWellTyped_createDefinition : IsWellTyped (createDefinition createResponses) where
  operationId := ⟨"create", rfl⟩
  tags := ⟨none, rfl⟩
  texts := by
    intro name hname
    simp only [textKeys, List.mem_cons, List.not_mem_nil, or_false] at hname
    rcases hname with rfl | rfl | rfl | rfl | rfl
    all_goals exact ⟨none, rfl⟩
  body := ⟨.absent, rfl⟩
  parameters := ⟨[], rfl⟩
  declared := ⟨_, rfl⟩
  chosen := by
    rintro _ ⟨⟩
    exact ⟨some [(.str "$ref", .str "Created"), (.str "nullable", .bool true)], rfl, _, rfl⟩

/-- The response with the number counts, also where the default is left out and others are added. -/
theorem first_response_decides_operation_of_created :
    isDeprecated (createDefinition createResponses) = false ∧
    IsWellTyped (createDefinition createResponses) ∧
    IsFirst (responses (createDefinition createResponses)) [.str "200", .int 200, .str "201"]
      (.int 201) createdResponse ∧
    ∃ op,
      (Operation.ofDefinition? ["post"] "/things" "post"
          (.ofMembers (createDefinition createResponses))).result = .ok (some op) ∧
      Shows createdResponse op.responseSchema ∧
      Operation.ofDefinition? ["post"] "/things" "post"
          (.ofMembers (createDefinition [(.str "201", .null), (.str "202", .ofMembers []),
            (.int 201, createdResponse), (.str "404", .ofMembers [])])) =
        Operation.ofDefinition? ["post"] "/things" "post"
          (.ofMembers (createDefinition createResponses)) := by
  have hfirst : IsFirst (responses (createDefinition createResponses))
      [.str "200", .int 200, .str "201"] (.int 201) createdResponse := by
    refine ⟨⟨_, rfl⟩, ?_, rfl, by simp [createdResponse]⟩
    simp only [List.forall_mem_cons]
    exact ⟨rfl, rfl, rfl, by simp⟩
  obtain ⟨op, hop, hshows, -, hothers⟩ := first_response_decides_operation "/things" none
    (List.mem_singleton.2 rfl : "post" ∈ ["post"]) rfl isWellTyped_createDefinition hfirst
  refine ⟨rfl, isWellTyped_createDefinition, hfirst, op, hop, hshows, hothers none _ ?_⟩
  simp only [List.cons_append, List.nil_append, List.forall_mem_cons]
  exact ⟨rfl, rfl, rfl, rfl, by simp⟩

end Definition

end ApiOutline
