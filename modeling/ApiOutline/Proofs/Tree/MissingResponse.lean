import ApiOutline.Proofs.Definition.Response
import ApiOutline.Proofs.Tree.Shape
import ApiOutline.Proofs.Tree.Success

/-!
# A missing response ends the merge

If the rules can be applied and the definitions are well-typed, then only one
thing can go wrong in a merge: a definition is looked up that declares none of
the responses looked for. It is looked up whatever the nodes hold, so a
definition whose operation would be dropped afterwards ends the merge all the
same. The failure names the first such definition, by the order in which the
templates are visited and, at one template, the order of the methods.

Before that definition every step succeeds (`isReadable_of_not_lacks`), and at
it the visit fails with any nodes (`addItem_eq_missingResponse`).
-/

namespace ApiOutline

/-! ## Rules that can be applied -/

/-- Whether a rule has a pattern and a replacement that goes with it. -/
def Rule.isValid (r : Rule) : Bool :=
  match Pattern.compile r.pattern with
  | .error _ => false
  | .ok p => (Pattern.compileReplacement p r.replacement).toBool

theorem Rule.replaceFirst_isOk {r : Rule} (h : r.isValid = true) (t : String) :
    ∃ t', Pattern.replaceFirst r.pattern r.replacement t = .ok t' := by
  unfold Rule.isValid at h
  unfold Pattern.replaceFirst
  cases hp : Pattern.compile r.pattern with
  | error e =>
      rw [hp] at h
      cases h
  | ok p =>
      simp only [hp] at h
      cases hps : Pattern.compileReplacement p r.replacement with
      | error e =>
          rw [hps] at h
          cases h
      | ok ps =>
          simp only [hps]
          cases p.node.search t.toList with
          | none => exact ⟨t, rfl⟩
          | some m => exact ⟨String.ofList (m.replaced ps), rfl⟩

theorem Endpoint.applyRules_isOk {rules : List Rule} (h : ∀ r ∈ rules, r.isValid = true)
    (t : String) : ∃ t', applyRules rules t = .ok t' := by
  induction rules generalizing t with
  | nil => exact ⟨t, rfl⟩
  | cons r rest ih =>
      obtain ⟨hr, hrest⟩ := List.forall_mem_cons.1 h
      obtain ⟨t', ht⟩ := Rule.replaceFirst_isOk hr t
      rw [applyRules, ht]
      exact ih hrest t'

theorem Endpoint.ofTemplate_isOk {rules : List Rule} (h : ∀ r ∈ rules, r.isValid = true)
    (raw : String) : ∃ e, ofTemplate rules raw = .ok e := by
  obtain ⟨t, ht⟩ := applyRules_isOk h raw
  exact ⟨⟨raw, t⟩, by rw [ofTemplate, ht]⟩

namespace Tree

open Definition (isDeprecated lacksResponse)

variable {c : Conventions} {v : Visit} {members paths : Members}

/-! ## The definitions that a visit looks up -/

/-- Whether a path item defines an operation for a method that no response is declared for. -/
def Visit.lacks (v : Visit) (method : String) : Bool :=
  lacksResponse (Members.find v.item method)

/-- Whether the definitions that a path item has for some methods are well-typed, where they are
not passed over. -/
def HasWellTyped (methods : List String) (item : Members) : Prop :=
  ∀ method ∈ methods, ∀ cell definition, Members.find item method = .map cell definition →
    isDeprecated definition = false → Definition.IsWellTyped definition

/-- What a visit finds for a method that is asked for, if there is a definition. -/
theorem Visit.look_of_map {method : String} {cell : Option Nat} {definition : Members}
    (hm : method ∈ c.methods) (hmap : Members.find v.item method = .map cell definition) :
    (v.look c method).result =
      if isDeprecated definition then .ok none
      else some <$> Definition.operation v.endpoint.template method definition := by
  have hasked : (Operation.asked c.methods).contains method = true := by
    rw [Operation.asked_of_mem hm]
    exact List.contains_iff_mem.2 hm
  rw [Visit.look, hmap, Operation.ofDefinition?, hasked, Bool.true_and]
  cases isDeprecated definition with
  | true => rfl
  | false =>
      rw [Bool.not_false, if_pos rfl, Logged.result_bind]
      cases Definition.operation v.endpoint.template method definition <;> rfl

theorem Visit.look_isOk {method : String} (h : HasWellTyped c.methods v.item)
    (hm : method ∈ c.methods) (hlacks : v.lacks method = false) :
    ∃ found, (v.look c method).result = .ok found := by
  unfold Visit.lacks at hlacks
  cases hmap : Members.find v.item method with
  | map cell definition =>
      rw [hmap, lacksResponse] at hlacks
      rw [Visit.look_of_map hm hmap]
      cases hdeprecated : isDeprecated definition with
      | true => exact ⟨none, rfl⟩
      | false =>
          rw [hdeprecated, Bool.not_false, Bool.true_and, Bool.not_eq_false'] at hlacks
          have htyped := h method hm cell definition hmap hdeprecated
          obtain ⟨op, hop⟩ := Definition.operation_isOk htyped hlacks
          rw [if_neg Bool.false_ne_true, hop]
          exact ⟨some op, rfl⟩
  | _ =>
      rw [Visit.look, hmap]
      exact ⟨none, rfl⟩

theorem Visit.look_eq_missingResponse {method : String} (h : HasWellTyped c.methods v.item)
    (hm : method ∈ c.methods) (hlacks : v.lacks method = true) :
    (v.look c method).result =
      .error (.spec (.missingResponse v.endpoint.template method)) := by
  unfold Visit.lacks at hlacks
  cases hmap : Members.find v.item method with
  | map cell definition =>
      rw [hmap, lacksResponse, Bool.and_eq_true, Bool.not_eq_true', Bool.not_eq_true'] at hlacks
      have htyped := h method hm cell definition hmap hlacks.1
      rw [Visit.look_of_map hm hmap, hlacks.1, if_neg Bool.false_ne_true,
        Definition.operation_eq_missingResponse htyped hlacks.2]
      rfl
  | _ =>
      rw [hmap] at hlacks
      cases hlacks

/-- A visit can be read where each of its definitions has a response. -/
theorem isReadable_of_not_lacks (h : HasWellTyped c.methods v.item)
    (hlacks : ∀ method ∈ c.methods, v.lacks method = false) : v.IsReadable c :=
  fun method hm => Visit.look_isOk h hm (hlacks method hm)

/-! ## The first definition that lacks a response -/

/-- Whether a method of a visit is the first, among some visits, whose definition no response is
declared for. -/
structure IsFirstLacking (c : Conventions) (vs : List Visit) (v : Visit) (method : String) :
    Prop where
  lacks : v.lacks method = true
  before_visit : ∃ before after, vs = before ++ v :: after ∧
    ∀ w ∈ before, ∀ m ∈ c.methods, w.lacks m = false
  before_method : ∃ before after, c.methods = before ++ method :: after ∧
    ∀ m ∈ before, v.lacks m = false

theorem exists_isFirstLacking_iff {vs : List Visit} :
    (∃ v method, IsFirstLacking c vs v method) ↔
      ∃ v ∈ vs, ∃ method ∈ c.methods, v.lacks method = true := by
  constructor
  · rintro ⟨v, method, hlacks, ⟨_, _, rfl, -⟩, _, _, hmethods, -⟩
    refine ⟨v, List.mem_append_right _ List.mem_cons_self, method, ?_, hlacks⟩
    rw [hmethods]
    exact List.mem_append_right _ List.mem_cons_self
  · rintro ⟨v, hv, method, hmethod, hlacks⟩
    have hany : ∃ w ∈ vs, c.methods.any w.lacks = true :=
      ⟨v, hv, List.any_eq_true.2 ⟨method, hmethod, hlacks⟩⟩
    obtain ⟨w, hw⟩ := Option.isSome_iff_exists.1 (List.find?_isSome.2 hany)
    obtain ⟨hwany, before, after, hvs, hbefore⟩ := List.find?_eq_some_iff_append.1 hw
    obtain ⟨m, hm⟩ := Option.isSome_iff_exists.1 (List.find?_isSome.2 (List.any_eq_true.1 hwany))
    obtain ⟨hmlacks, ms, ms', hms, hmsbefore⟩ := List.find?_eq_some_iff_append.1 hm
    refine ⟨w, m, hmlacks, ⟨before, after, hvs, fun u hu m hm => ?_⟩, ms, ms', hms,
      fun m hm => ?_⟩
    · have hnone := hbefore u hu
      rw [Bool.not_eq_true', List.any_eq_false] at hnone
      exact Bool.not_eq_true _ ▸ hnone m hm
    · exact Bool.not_eq_true' _ ▸ hmsbefore m hm

/-! ## Up to it and at it -/

/-- Operations are gathered up to the first method whose definition lacks a response, and no
further, whatever has been gathered. -/
theorem gather_eq_missingResponse (h : HasWellTyped c.methods v.item) {method : String}
    (hlacks : v.lacks method = true) (path : String) (appending : Bool)
    {before after : List String} (hmem : before ++ method :: after ⊆ c.methods)
    (hbefore : ∀ m ∈ before, v.lacks m = false) (ops : List Operation) :
    (gather c v.endpoint v.item path appending (before ++ method :: after) ops).result =
      .error (.spec (.missingResponse v.endpoint.template method)) := by
  induction before generalizing ops with
  | nil =>
      have hlook := Visit.look_eq_missingResponse h (hmem List.mem_cons_self) hlacks
      rw [Visit.look] at hlook
      rw [List.nil_append, gather, Logged.result_bind, hlook]
      rfl
  | cons m rest ih =>
      obtain ⟨hm, hrest⟩ := List.forall_mem_cons.1 hbefore
      obtain ⟨hmm, hmrest⟩ := List.cons_subset.1 hmem
      obtain ⟨found, hfound⟩ := Visit.look_isOk h hmm hm
      rw [Visit.look] at hfound
      rw [List.cons_append, gather, Logged.result_bind, hfound]
      show Logged.result _ = _
      cases found with
      | none => exact ih hmrest hrest ops
      | some op =>
          simp only []
          split
          · rw [Logged.result_bind]
            exact ih hmrest hrest ops
          · exact ih hmrest hrest _

theorem addItem_eq_missingResponse (h : HasWellTyped c.methods v.item) {method : String}
    {vs : List Visit} (hfirst : IsFirstLacking c vs v method) (nodes : List Node) :
    (addItem c v.endpoint v.item nodes).result =
      .error (.spec (.missingResponse v.endpoint.template method)) := by
  obtain ⟨before, after, hmethods, hbefore⟩ := hfirst.before_method
  have hgather : ∀ path appending ops,
      (gather c v.endpoint v.item path appending c.methods ops).result =
        .error (.spec (.missingResponse v.endpoint.template method)) := by
    intro path appending ops
    have hmem : before ++ method :: after ⊆ c.methods := hmethods ▸ List.Subset.refl _
    rw [hmethods]
    exact gather_eq_missingResponse h hfirst.lacks path appending hmem hbefore ops
  unfold addItem
  simp only []
  split
  · rw [Logged.result_bind, hgather]
    rfl
  · split
    · rw [Logged.result_bind, hgather]
      rfl
    · rw [Logged.result_bind, hgather]
      rfl

/-- Whether the path items in some members of `paths` have well-typed definitions for some
methods. -/
def AreWellTyped (methods : List String) (members : Members) : Prop :=
  ∀ template cell item, (template, .map cell item) ∈ members → HasWellTyped methods item

/-- Whether the keys of some members are texts. -/
def HasTextKeys (members : Members) : Prop :=
  ∀ m ∈ members, m.1.isText = true

/-- With valid rules, each path item leads to a visit. -/
theorem exists_visit (hrules : ∀ r ∈ c.rules, r.isValid = true) (hkeys : HasTextKeys members)
    {template : Value} {cell : Option Nat} {item : Members}
    (hm : (template, .map cell item) ∈ members) :
    ∃ v, Visit.ofMember? c (template, .map cell item) = some v ∧ v.item = item := by
  have htext := hkeys _ hm
  cases template with
  | str raw =>
      obtain ⟨e, he⟩ := Endpoint.ofTemplate_isOk hrules raw
      exact ⟨⟨e, item⟩, by rw [Visit.ofMember?, he]; rfl, rfl⟩
  | _ => cases htext

theorem isReadable_of_visits (hrules : ∀ r ∈ c.rules, r.isValid = true)
    (hkeys : HasTextKeys members) (htyped : AreWellTyped c.methods members)
    (hlacks : ∀ v ∈ visits c members, ∀ m ∈ c.methods, v.lacks m = false) :
    IsReadable c members := by
  rintro ⟨template, item⟩ hm hmap
  cases item with
  | map cell ms =>
      obtain ⟨v, hv, rfl⟩ := exists_visit hrules hkeys hm
      have hmem : v ∈ visits c members := List.mem_filterMap.2 ⟨_, hm, hv⟩
      exact ⟨v, hv, isReadable_of_not_lacks (htyped _ _ _ hm) (hlacks v hmem)⟩
  | _ => cases hmap

theorem addMembers_eq_missingResponse (hrules : ∀ r ∈ c.rules, r.isValid = true)
    (hkeys : HasTextKeys members) (htyped : AreWellTyped c.methods members) {method : String}
    (hfirst : IsFirstLacking c (visits c members) v method) (nodes : List Node) :
    (addMembers c members nodes).result =
      .error (.spec (.missingResponse v.endpoint.template method)) := by
  obtain ⟨vs, ws, hvisits, hbefore⟩ := hfirst.before_visit
  obtain ⟨before, m, after, rfl, rfl, hm, -⟩ := visits_eq_append_cons hvisits
  obtain ⟨cell, rfl, he⟩ := Visit.ofMember?_some hm
  have hread : IsReadable c before :=
    isReadable_of_visits hrules (fun m hm => hkeys m (List.mem_append_left _ hm))
      (fun t cell item hm => htyped t cell item (List.mem_append_left _ hm)) hbefore
  obtain ⟨table, htable⟩ := addMembers_isOk hread nodes
  have hitem := htyped _ _ _ (List.mem_append_right before List.mem_cons_self)
  rw [addMembers_append, htable]
  show (addMembers c _ table).result = _
  rw [addMembers, Logged.result_bind, addMember, Logged.result_bind, Logged.result_bind,
    Logged.result_ofExcept, he]
  show (addItem c v.endpoint v.item table).result >>= _ = _
  rw [addItem_eq_missingResponse hitem hfirst table]
  rfl

/-! ## The whole merge -/

theorem templateLength_isSome {template : Value} (h : template.isText = true) :
    (templateLength template).isSome = true := by
  cases template with
  | str raw => rfl
  | _ => cases h

theorem merge_of_hasTextKeys (hkeys : HasTextKeys paths) :
    merge c paths = addMembers c (ordered paths) [] :=
  if_pos (List.all_eq_true.2 fun m hm => templateLength_isSome (hkeys m hm))

/-- What the merge of some paths fails with is the response that is missing first. -/
theorem result_merge_eq_error_iff (hrules : ∀ r ∈ c.rules, r.isValid = true)
    (hkeys : HasTextKeys paths) (htyped : AreWellTyped c.methods paths) {failure : Failure} :
    (merge c paths).result = .error failure ↔
      ∃ v method, IsFirstLacking c (visits c (ordered paths)) v method ∧
        failure = .spec (.missingResponse v.endpoint.template method) := by
  have hmem : ∀ m ∈ ordered paths, m ∈ paths := fun m hm => (ordered_perm paths).mem_iff.1 hm
  have hkeys' : HasTextKeys (ordered paths) := fun m hm => hkeys m (hmem m hm)
  have htyped' : AreWellTyped c.methods (ordered paths) := fun t cell item hm =>
    htyped t cell item (hmem _ hm)
  rw [merge_of_hasTextKeys hkeys]
  constructor
  · intro hfail
    by_cases hlacking : ∃ v method, IsFirstLacking c (visits c (ordered paths)) v method
    · obtain ⟨v, method, hfirst⟩ := hlacking
      rw [addMembers_eq_missingResponse hrules hkeys' htyped' hfirst] at hfail
      cases hfail
      exact ⟨v, method, hfirst, rfl⟩
    · rw [exists_isFirstLacking_iff] at hlacking
      have hread : IsReadable c (ordered paths) :=
        isReadable_of_visits hrules hkeys' htyped' fun v hv m hm => by
          rw [← Bool.not_eq_true]
          exact fun hlacks => hlacking ⟨v, hv, m, hm, hlacks⟩
      obtain ⟨nodes, hnodes⟩ := addMembers_isOk hread []
      rw [hnodes] at hfail
      cases hfail
  · rintro ⟨v, method, hfirst, rfl⟩
    exact addMembers_eq_missingResponse hrules hkeys' htyped' hfirst []

/-- The path tree of a document fails as the merge of its paths does. -/
theorem result_ofDocument_eq_error_iff {cell cell' : Option Nat} {ms : Members}
    (h : Members.find ms "paths" = .map cell' paths) (failure : Failure) :
    (ofDocument c (.map cell ms)).result = .error failure ↔
      (merge c paths).result = .error failure := by
  have hnodes : (nodesOf c (.map cell ms)).result = (merge c paths).result := by
    rw [nodesOf, Logged.result_bind, Logged.result_ofExcept, Value.members_map]
    show Logged.result _ = _
    rw [h]
    split
    · rw [Logged.result_bind]
      rfl
    · next htruthy =>
        rw [Bool.not_eq_true] at htruthy
        have hnil : paths = [] := Value.membersOrNil_of_falsy htruthy
        rw [hnil, merge_nil]
        rfl
  rw [ofDocument, Logged.result_bind, hnodes]
  cases (merge c paths).result with
  | error e => exact Iff.rfl
  | ok nodes =>
      constructor
      · intro hfail
        cases hfail
      · intro hfail
        cases hfail

/-- With valid rules and well-typed definitions, a merge reports a missing response exactly if a
definition has none of those looked for, whether or not its operation would be kept. Nothing else
can fail, and it is the first such definition that is reported: templates are visited from short to
long, and methods are looked up in the order of the conventions. The path tree of a document fails
in the same way. -/
theorem merge_fails_at_first_missing_response {c : Conventions} {paths : Members}
    (hrules : ∀ r ∈ c.rules, r.isValid = true) (hkeys : HasTextKeys paths)
    (htyped : AreWellTyped c.methods paths) :
    ((∃ endpoint method,
        (merge c paths).result = .error (.spec (.missingResponse endpoint method))) ↔
      ∃ template cell item, (template, .map cell item) ∈ paths ∧
        ∃ method ∈ c.methods, lacksResponse (Members.find item method) = true) ∧
    (∀ failure, (merge c paths).result = .error failure ↔
      ∃ v method, IsFirstLacking c (visits c (ordered paths)) v method ∧
        failure = .spec (.missingResponse v.endpoint.template method)) ∧
    IsSorting (fun v : Visit => v.endpoint.raw.length) (visits c paths)
      (visits c (ordered paths)) ∧
    ∀ cell ms cell', Members.find ms "paths" = .map cell' paths → ∀ failure,
      (ofDocument c (.map cell ms)).result = .error failure ↔
        (merge c paths).result = .error failure := by
  refine ⟨?_, fun failure => result_merge_eq_error_iff hrules hkeys htyped,
    isSorting_visits c paths, fun _ _ _ h failure => result_ofDocument_eq_error_iff h failure⟩
  constructor
  · rintro ⟨endpoint, method, hfail⟩
    obtain ⟨v, m, hfirst, -⟩ := (result_merge_eq_error_iff hrules hkeys htyped).1 hfail
    obtain ⟨w, hw, m, hm, hlacks⟩ := exists_isFirstLacking_iff.1 ⟨v, m, hfirst⟩
    obtain ⟨member, hmember, hw⟩ := List.mem_filterMap.1 hw
    obtain ⟨cell, rfl, -⟩ := Visit.ofMember?_some hw
    exact ⟨_, cell, w.item, (ordered_perm paths).mem_iff.1 hmember, m, hm, hlacks⟩
  · rintro ⟨template, cell, item, hmem, method, hm, hlacks⟩
    obtain ⟨v, hv, rfl⟩ := exists_visit hrules hkeys hmem
    have hvisit : v ∈ visits c (ordered paths) :=
      List.mem_filterMap.2 ⟨_, (ordered_perm paths).mem_iff.2 hmem, hv⟩
    obtain ⟨w, m, hfirst⟩ := exists_isFirstLacking_iff.2 ⟨v, hvisit, method, hm, hlacks⟩
    exact ⟨w.endpoint.template, m,
      (result_merge_eq_error_iff hrules hkeys htyped).2 ⟨w, m, hfirst, rfl⟩⟩

/-! ## Users

Users are listed at a template and, behind a prefix, at another one with the
same segments. The second definition would be dropped, but it has none of the
responses looked for. -/

def scimTemplate : String := "/scim/v2/Users"

def prefixedTemplate : String := "/\x7bt\x7d/scim/v2/Users"

/-- A definition whose responses do not count: one has another status, and one is null. -/
def teapotDefinition : Members :=
  [(.str "operationId", .str "listOnceMore"),
    (.str "responses", .ofMembers [(.int 418, .ofMembers []), (.str "default", .null)])]

def scimVisit : Visit :=
  ⟨⟨scimTemplate, "/scim/\x7bversion\x7d/Users"⟩, [(.str "get", shelfDefinition "list")]⟩

def prefixedVisit : Visit :=
  ⟨⟨prefixedTemplate, "/\x7bt\x7d/scim/\x7bversion\x7d/Users"⟩,
    [(.str "get", .ofMembers teapotDefinition)]⟩

def scimPaths : Members :=
  [(.str scimTemplate, .ofMembers scimVisit.item),
   (.str prefixedTemplate, .ofMembers prefixedVisit.item)]

theorem ordered_scimPaths : ordered scimPaths = scimPaths :=
  List.mergeSort_of_pairwise (by decide +kernel)

theorem ofTemplate_scimTemplate : Endpoint.ofTemplate Conventions.default.rules scimTemplate =
    .ok scimVisit.endpoint := by decide +kernel

theorem ofTemplate_prefixedTemplate :
    Endpoint.ofTemplate Conventions.default.rules prefixedTemplate =
      .ok prefixedVisit.endpoint := by decide +kernel

theorem visits_scimPaths : visits .default scimPaths = [scimVisit, prefixedVisit] := by
  simp only [visits, scimPaths, List.filterMap_cons, List.filterMap_nil, Value.ofMembers,
    Visit.ofMember?, ofTemplate_scimTemplate, ofTemplate_prefixedTemplate]
  rfl

theorem hasWellTyped_of_forall {methods : List String} {item : Members}
    (h : ∀ key cell definition, (key, .map cell definition) ∈ item →
      Definition.IsWellTyped definition) : HasWellTyped methods item := by
  intro method _ cell definition hfind _
  exact h (.str method) cell definition (Members.mem_of_find hfind (by simp))

/-- A definition with nothing but an id and responses is well-typed. -/
theorem isWellTyped_of_responses (id : String) {responses : Members}
    (h : ∀ response, Definition.Response.chosen responses = some response →
      response = .ofMembers []) :
    Definition.IsWellTyped
      [(.str "operationId", .str id), (.str "responses", .ofMembers responses)] where
  operationId := ⟨id, rfl⟩
  tags := ⟨none, rfl⟩
  texts := by
    intro key hkey
    simp only [Definition.textKeys, List.mem_cons, List.not_mem_nil, or_false] at hkey
    rcases hkey with rfl | rfl | rfl | rfl | rfl
    all_goals exact ⟨none, rfl⟩
  body := ⟨.absent, rfl⟩
  parameters := ⟨[], rfl⟩
  declared := by cases responses <;> exact ⟨_, rfl⟩
  chosen := by
    intro response hresponse
    rw [h response hresponse]
    exact ⟨none, rfl, none, rfl⟩

theorem areWellTyped_scimPaths : AreWellTyped Conventions.default.methods scimPaths := by
  intro template cell item hmem
  refine hasWellTyped_of_forall fun key cell definition hdefinition => ?_
  simp only [scimPaths, List.mem_cons, List.not_mem_nil, or_false, Prod.mk.injEq,
    Value.map.injEq] at hmem
  rcases hmem with ⟨-, -, rfl⟩ | ⟨-, -, rfl⟩
  · obtain ⟨-, -, rfl⟩ : _ ∧ _ ∧ _ := by
      simpa [scimVisit, shelfDefinition] using hdefinition
    refine isWellTyped_of_responses "list" fun response hresponse => ?_
    cases hresponse
    rfl
  · obtain ⟨-, -, rfl⟩ : _ ∧ _ ∧ _ := by
      simpa [prefixedVisit] using hdefinition
    refine isWellTyped_of_responses "listOnceMore" fun response hresponse => ?_
    cases hresponse

theorem isFirstLacking_prefixedVisit :
    IsFirstLacking .default (visits .default (ordered scimPaths)) prefixedVisit "get" := by
  rw [ordered_scimPaths, visits_scimPaths]
  exact ⟨by decide +kernel, ⟨[scimVisit], [], rfl, by decide +kernel⟩,
    ⟨[], ["post", "put", "delete", "patch"], rfl, by simp⟩⟩

/-- A definition without a response is reported although its operation would be dropped. -/
theorem merge_fails_at_first_missing_response_of_users :
    (∀ r ∈ Conventions.default.rules, r.isValid = true) ∧ HasTextKeys scimPaths ∧
    AreWellTyped Conventions.default.methods scimPaths ∧
    (merge .default scimPaths).result =
      .error (.spec (.missingResponse "/\x7bt\x7d/scim/\x7bversion\x7d/Users" "get")) := by
  have hrules : ∀ r ∈ Conventions.default.rules, r.isValid = true := by decide +kernel
  have hkeys : HasTextKeys scimPaths := by simp [HasTextKeys, scimPaths, Value.isText]
  obtain ⟨-, hfailure, -, -⟩ :=
    merge_fails_at_first_missing_response hrules hkeys areWellTyped_scimPaths
  exact ⟨hrules, hkeys, areWellTyped_scimPaths,
    (hfailure _).2 ⟨prefixedVisit, "get", isFirstLacking_prefixedVisit, rfl⟩⟩

end Tree

end ApiOutline
