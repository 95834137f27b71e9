import ApiOutline.Proofs.Agreement

/-!
# Form models and the bodies they are for

A form whose schema is written out gets a model, which is named after the
operation, and the operation says by a flag and a name which form it sends. The
two are read off one definition in different ways. The operation goes by the
media types that are there and by the references in their schemas. The model
goes by the media types that have something in them and by the properties in
their schemas.

So they agree on the definitions for which the differences do not matter: where
a plain form is there, it is not empty, and the schema of the form refers to no
other one (`HasOwnForm`). On all others the model belongs to no body that is
announced (`form_models_belong_iff`).
-/

namespace ApiOutline

namespace Schema

open Definition (formMediaType multipartMediaType)
open Definition.Body (formTypeIn schemaRef)

variable {definition content : Members}

/-- Whether a plain form that a definition has a media type for is not empty, and the schema of its
form refers to no other schema. -/
structure HasOwnForm (definition : Members) : Prop where
  notEmpty : ∀ media, Members.find? (contentOf definition) formMediaType = some media →
    media.isTruthy = true
  ownSchema : (schemaRef (formMedia (contentOf definition))).isTruthy = false

/-- Unless a plain form is there and empty, the form that a model is made for is the one with the
media type that is announced. -/
theorem formMedia_eq (hnotEmpty : ∀ media, Members.find? content formMediaType = some media →
      media.isTruthy = true) (hmedia : formMedia content ≠ .null) :
    ∃ mediaType, formTypeIn content = some mediaType ∧
      formMedia content = Members.find content mediaType := by
  unfold formMedia at hmedia ⊢
  unfold formTypeIn
  simp only [] at hmedia ⊢
  cases hplain : Members.find? content formMediaType with
  | some media =>
      have htruthy : (Members.find content formMediaType).isTruthy = true := by
        rw [Members.find_of_find? hplain]
        exact hnotEmpty media hplain
      exact ⟨formMediaType, rfl, if_pos htruthy⟩
  | none =>
      have hfalsy : ¬ (Members.find content formMediaType).isTruthy = true := by
        rw [Members.find, hplain]
        exact Bool.false_ne_true
      rw [if_neg hfalsy] at hmedia ⊢
      refine ⟨multipartMediaType, ?_, rfl⟩
      cases hparts : Members.find? content multipartMediaType with
      | some media => rfl
      | none =>
          rw [Members.find, hparts] at hmedia
          exact absurd rfl hmedia

/-- Where a plain form is there and empty, nothing is sent in the media type that is announced. -/
theorem sentIn_eq_null {media : Value} {mediaType : String}
    (hmedia : Members.find? (contentOf definition) formMediaType = some media)
    (hempty : media.isTruthy = false) (htype : formTypeIn (contentOf definition) = some mediaType) :
    sentIn definition mediaType = .null := by
  rw [formTypeIn, hmedia] at htype
  obtain rfl : formMediaType = mediaType := Option.some.inj htype
  rw [sentIn, Members.find_of_find? hmedia, Value.membersOrNil_of_falsy hempty]
  rfl

theorem schemaRef_eq {media : Value} {cell : Option Nat} {schema : Members}
    (h : Members.find media.membersOrNil "schema" = .map cell schema) :
    schemaRef media = Members.find schema "$ref" := by
  cases media with
  | map c ms =>
      have hfind : Members.find ms "schema" = .map cell schema := h
      rw [schemaRef, hfind]
  | _ => cases h

end Schema

/-! ## What an operation announces -/

namespace Outline

variable {op : Operation} {definition schema : Members} {cell : Option Nat} {model : Model}

/-- Whether a form model belongs to the body that an operation announces: the operation calls it by
its own id, and it has the fields of the schema in the media type that the operation says it sends,
which refers to no other schema. -/
structure BelongsTo (model : Model) (op : Operation) (definition : Members) : Prop where
  named : op.bodyParameters = some (op.operationId ++ "Request")
  built : ∃ mediaType cell schema, op.formType? = some mediaType ∧
    Schema.sentIn definition mediaType = .map cell schema ∧
    (Members.find schema "$ref").isTruthy = false ∧ HasFieldsOf cell schema model

/-- The model of a form belongs to what is announced exactly if the definition has a form of its
own. -/
theorem belongsTo_iff
    (hbody : Definition.Body.ofRequest (op.operationId ++ "Request")
        (Members.find definition "requestBody") =
      .ok ⟨op.formUrlEncoded, op.multipart, op.bodyParameters⟩)
    (hform : Schema.writtenForm definition = some (cell, schema))
    (hfields : Schema.fieldsIn schema = .ok model.fields) :
    BelongsTo model op definition ↔ Schema.HasOwnForm definition := by
  have htypes := Operation.formType?_eq hbody
  have hschema := (Schema.writtenForm_eq_some.1 hform).1
  have hmedia : Schema.formMedia (Schema.contentOf definition) ≠ .null := by
    intro hnull
    rw [hnull] at hschema
    cases hschema
  constructor
  · rintro ⟨-, mediaType, cell', schema', htype, hsent, hown, -⟩
    have hnotEmpty : ∀ media, Members.find? (Schema.contentOf definition)
        Definition.formMediaType = some media → media.isTruthy = true := by
      intro media hfound
      cases hempty : media.isTruthy with
      | true => rfl
      | false =>
          rw [Schema.sentIn_eq_null hfound hempty (htypes.symm.trans htype)] at hsent
          cases hsent
    refine ⟨hnotEmpty, ?_⟩
    obtain ⟨mediaType', htype', hmediaType⟩ := Schema.formMedia_eq hnotEmpty hmedia
    have hsame := htype'.symm.trans (htypes.symm.trans htype)
    obtain rfl : mediaType' = mediaType := Option.some.inj hsame
    rw [hmediaType, Schema.schemaRef_eq hsent]
    exact hown
  · rintro ⟨hnotEmpty, hown⟩
    obtain ⟨mediaType, htype, hmediaType⟩ := Schema.formMedia_eq hnotEmpty hmedia
    rw [hmediaType] at hschema hown
    have hnamed := (Definition.Body.ofRequest_ok hbody).model_eq htype hown
    rw [Schema.schemaRef_eq hschema] at hown
    rw [← htypes] at htype
    exact ⟨hnamed, mediaType, cell, schema, htype, hschema, hown, hasFieldsOf hfields⟩

/-- In the outline of a JSON document, each operation with an id is read from a definition, and if a
form model is made for that definition, it is called after the operation. It belongs to the body
that the operation announces exactly if the definition has a form of its own. -/
theorem form_models_belong_iff {c : Conventions} {document : Value} {o : Outline}
    (hjson : document.isJson = true) (hmethods : c.methods ⊆ Schema.httpMethods)
    (h : (ofDocument c document).result = .ok o) :
    ∀ n ∈ o.nodes, ∀ op ∈ n.operations, op.operationId ≠ "" →
      (∃ definition, IsReadFrom c (Tree.pathsIn document) op definition) ∧
      ∀ definition, IsReadFrom c (Tree.pathsIn document) op definition →
        ∃ form, Schema.formModel definition (.str op.operationId) = .ok (form, []) ∧
          ∀ model, form = some model →
            model ∈ o.models ∧
            model.name = Naming.capitalizeFirst op.operationId ++ "Request" ∧
            (BelongsTo model op definition ↔ Schema.HasOwnForm definition) := by
  intro n hn op hop hid
  obtain ⟨nodes, hnodes, h⟩ := Logged.result_bind_eq_ok.1 h
  obtain ⟨models, hmodels, h⟩ := Logged.result_bind_eq_ok.1 h
  cases h
  refine ⟨exists_isReadFrom hnodes hn hop, fun definition hread => ?_⟩
  obtain ⟨-, hbody, -, form, query, hform, -, hmem⟩ :=
    exists_models hjson hmethods hmodels hread hid
  refine ⟨form, hform, ?_⟩
  rintro model rfl
  obtain ⟨cell, schema, hwritten, hname, hfields⟩ := Schema.formModel_some hform
  exact ⟨hmem model (List.mem_append_left _ (by simp)), (Except.ok.inj hname).symm,
    belongsTo_iff hbody hwritten hfields⟩

/-! ## A plain form that is empty

Files are sent in a form in parts. A plain form is there as well, but nothing is
said of it. -/

def mixedDefinition : Members :=
  [(.str "operationId", .str "upload"),
    (.str "requestBody", .ofMembers [(.str "content", .ofMembers
      [(.str "application/x-www-form-urlencoded", .ofMembers []),
        (.str "multipart/form-data", .ofMembers [(.str "schema", .ofMembers formSchema)])])]),
    (.str "responses", .ofMembers [(.str "200", .ofMembers [])])]

def mixedPaths : Members :=
  [(.str "/files", .ofMembers [(.str "post", .ofMembers mixedDefinition)])]

def mixedDocument : Value := .ofMembers [(.str "paths", .ofMembers mixedPaths)]

def mixedOperation : Operation :=
  ⟨"/files", "post", "post", "upload", none, none, none, none, none, none, false, none, none,
    some "uploadRequest", some true, none⟩

def mixedNode : Node := { filesNode with operations := [mixedOperation] }

def mixedOutline : Outline where
  models := [.attachment, uploadForm]
  nodes := [mixedNode]

theorem formModel_mixed :
    Schema.formModel mixedDefinition (.str "upload") = .ok (some uploadForm, []) := by
  have hmodel : Schema.toModel (.str "UploadRequest") (.ofMembers describedSchema) =
      .ok uploadForm := Schema.toModel_eq fieldsIn_describedSchema rfl "UploadRequest"
  show (Schema.toModel (.str "UploadRequest") (.ofMembers describedSchema) >>= _) = _
  rw [hmodel]
  rfl

theorem result_models_mixed :
    (Schema.models mixedDocument).result = .ok mixedOutline.models := by
  have hmodels : Schema.modelsOf (.ofMembers mixedDefinition) (.str "upload") =
      .ok ([uploadForm], []) := by
    show (Schema.formModel mixedDefinition (.str "upload") >>= _) = _
    rw [formModel_mixed]
    rfl
  have hsites : Schema.sites mixedPaths =
      [⟨.str "/files", "post", .ofMembers mixedDefinition⟩] := rfl
  have hpaths : (Members.find [(.str "paths", .ofMembers mixedPaths)] "paths").membersIfAny =
      .ok mixedPaths := rfl
  exact Schema.result_models_single rfl rfl hpaths hsites rfl rfl hmodels

theorem ofTemplate_files :
    Endpoint.ofTemplate Conventions.default.rules "/files" = .ok ⟨"/files", "/files"⟩ := by
  decide +kernel

theorem result_tree_mixed :
    (Tree.ofDocument .default mixedDocument).result = .ok [mixedNode] := by
  have hordered : Tree.ordered mixedPaths = mixedPaths := List.mergeSort_singleton _
  have hmerge : (Tree.merge .default mixedPaths).result = .ok [mixedNode] := by
    rw [Tree.merge, if_pos (by decide +kernel), hordered, mixedPaths]
    simp only [Tree.addMembers, Tree.addMember, ofTemplate_files]
    rfl
  have hnodes : (Tree.nodesOf .default mixedDocument).result = .ok [mixedNode] := hmerge
  rw [Tree.ofDocument, Logged.result_bind, hnodes]
  exact congrArg Except.ok (List.mergeSort_singleton _)

theorem isReadFrom_mixed :
    IsReadFrom .default (Tree.pathsIn mixedDocument) mixedOperation mixedDefinition := by
  have hvisits : Tree.visits .default mixedPaths =
      [⟨⟨"/files", "/files"⟩, [(.str "post", .ofMembers mixedDefinition)]⟩] := by
    simp only [Tree.visits, mixedPaths, List.filterMap_cons, List.filterMap_nil, Value.ofMembers,
      Tree.Visit.ofMember?, ofTemplate_files]
    rfl
  refine ⟨⟨⟨"/files", "/files"⟩, [(.str "post", .ofMembers mixedDefinition)]⟩, ?_, rfl, none, rfl⟩
  show _ ∈ Tree.visits .default mixedPaths
  rw [hvisits]
  exact List.mem_cons_self

/-- The operation says that it sends the plain form, which has no schema, and its model has the
fields of the form in parts. -/
theorem model_of_empty_plain_form :
    mixedDocument.isJson = true ∧
    (ofDocument .default mixedDocument).result = .ok mixedOutline ∧
    mixedNode ∈ mixedOutline.nodes ∧ mixedOperation ∈ mixedNode.operations ∧
    mixedOperation.operationId ≠ "" ∧
    IsReadFrom .default (Tree.pathsIn mixedDocument) mixedOperation mixedDefinition ∧
    Schema.formModel mixedDefinition (.str "upload") = .ok (some uploadForm, []) ∧
    uploadForm ∈ mixedOutline.models ∧
    mixedOperation.formType? = some Definition.formMediaType ∧
    Schema.sentIn mixedDefinition Definition.formMediaType = .null ∧
    ¬ BelongsTo uploadForm mixedOperation mixedDefinition := by
  have houtline : (ofDocument .default mixedDocument).result = .ok mixedOutline := by
    rw [ofDocument, Logged.result_bind, result_tree_mixed]
    show (Schema.models mixedDocument >>= _).result = _
    rw [Logged.result_bind, result_models_mixed]
    rfl
  refine ⟨by decide +kernel, houtline, List.mem_cons_self, List.mem_cons_self, by decide,
    isReadFrom_mixed, formModel_mixed, by simp [mixedOutline], rfl, rfl, ?_⟩
  rintro ⟨-, mediaType, cell, schema, htype, hsent, -⟩
  cases htype
  cases hsent

theorem form_models_belong_iff_of_files :
    filesDocument.isJson = true ∧ Tree.shelfConventions.methods ⊆ Schema.httpMethods ∧
    (ofDocument Tree.shelfConventions filesDocument).result = .ok filesOutline ∧
    filesNode ∈ filesOutline.nodes ∧ uploadOperation ∈ filesNode.operations ∧
    uploadOperation.operationId ≠ "" ∧
    IsReadFrom Tree.shelfConventions (Tree.pathsIn filesDocument) uploadOperation uploadDefinition ∧
    Schema.HasOwnForm uploadDefinition ∧
    uploadForm ∈ filesOutline.models ∧ BelongsTo uploadForm uploadOperation uploadDefinition := by
  have hjson : filesDocument.isJson = true := by decide +kernel
  have hmethods : Tree.shelfConventions.methods ⊆ Schema.httpMethods := by decide
  have houtline : (ofDocument Tree.shelfConventions filesDocument).result = .ok filesOutline := by
    rw [ofDocument, Logged.result_bind, result_tree_files]
    show (Schema.models filesDocument >>= _).result = _
    rw [Logged.result_bind, result_models_files]
    rfl
  have hread : IsReadFrom Tree.shelfConventions (Tree.pathsIn filesDocument) uploadOperation
      uploadDefinition :=
    ⟨⟨⟨"/files", "/files"⟩, [(.str "post", .ofMembers uploadDefinition)]⟩, List.mem_cons_self,
      rfl, none, rfl⟩
  have hown : Schema.HasOwnForm uploadDefinition := by
    refine ⟨fun media hmedia => ?_, rfl⟩
    cases hmedia
  have hid : uploadOperation.operationId ≠ "" := by decide
  obtain ⟨-, hall⟩ := form_models_belong_iff hjson hmethods houtline filesNode List.mem_cons_self
    uploadOperation List.mem_cons_self hid
  obtain ⟨form, hform, hmodels⟩ := hall uploadDefinition hread
  obtain rfl : some uploadForm = form := by
    have hsame := formModel_upload.symm.trans hform
    injection hsame with hpair
    exact (Prod.mk.inj hpair).1
  obtain ⟨hmem, -, hbelongs⟩ := hmodels uploadForm rfl
  exact ⟨hjson, hmethods, houtline, List.mem_cons_self, List.mem_cons_self, hid, hread, hown, hmem,
    hbelongs.2 hown⟩

end Outline

end ApiOutline
