import ApiOutline.Describe
import ApiOutline.Proofs.Definition.Body
import ApiOutline.Proofs.Schema.Origin
import ApiOutline.Proofs.Tree.Shape
import Mathlib.Data.List.Permutation

/-!
# Operations and models agree on names

The path tree and the models are worked out from a document one after the
other, and neither looks at the other. What ties them together are names: an
operation of the tree says how its query parameters and its form are called,
and there has to be a model that is called so, but for the case of the first
letter.

An operation of the tree is read from a definition (`exists_isReadFrom`). That
definition is among the operations that models are made for, its id is the
operation's, and it names the same query parameters and has the same form on
both sides (`form_of_formType?`). The last theorem puts the two sides together.
-/

namespace ApiOutline

theorem Naming.capitalizeFirst_append {s : String} (h : s ≠ "") (t : String) :
    capitalizeFirst (s ++ t) = capitalizeFirst s ++ t := by
  unfold capitalizeFirst
  rw [String.toList_append]
  cases hs : s.toList with
  | nil => exact absurd (String.toList_eq_nil_iff.1 hs) h
  | cons c rest =>
      simp only [List.cons_append, String.ofList_append, String.append_assoc, String.ofList_toList]

namespace Definition

variable {definition : Members}

/-- A definition whose id is read as a text that is not empty has that text for its id. -/
theorem find_operationId {cell : Option Nat} {id : String}
    (hjson : (Value.map cell definition).isJson = true)
    (h : Record.text (operationId definition) = .accepted id) (hne : id ≠ "") :
    operationId definition = .str id ∧ Members.find definition "operationId" = .str id := by
  have hfind := Value.isJson_find hjson "operationId"
  unfold operationId at *
  unfold Members.find at *
  cases hid : Members.find? definition "operationId" with
  | none =>
      rw [hid] at h
      cases h
      exact absurd rfl hne
  | some v =>
      rw [hid, Option.getD_some] at h hfind
      exact ⟨Value.eq_str_of_text hfind h, Value.eq_str_of_text hfind h⟩

/-- Query parameters are named after the operation, if there are any. -/
theorem queryModel_eq_some {id name : String} (h : queryModel definition id = .ok (some name)) :
    name = id ++ "Parameters" ∧ Schema.queryOf definition ≠ [] := by
  obtain ⟨parameters, hparameters, h⟩ := bind_eq_ok.1 h
  rw [Value.eq_mappingsOrNil hparameters] at h
  split at h
  · next hquery =>
      cases h
      obtain ⟨p, hp, hin⟩ := List.any_eq_true.1 hquery
      exact ⟨rfl, List.ne_nil_of_mem (List.mem_filter.2 ⟨hp, hin⟩)⟩
  · cases h

end Definition

/-- The media type of the form that an operation sends, if it sends one. -/
def Operation.formType? (op : Operation) : Option String :=
  if op.formUrlEncoded.isSome then some Definition.formMediaType
  else if op.multipart.isSome then some Definition.multipartMediaType
  else none

/-! ## Forms on both sides -/

/-- A value in which a mapping is found is not empty. -/
theorem Value.isTruthy_of_find {v : Value} {key : String} {cell : Option Nat} {ms : Members}
    (h : Members.find v.membersOrNil key = .map cell ms) : v.isTruthy = true := by
  cases v with
  | map c inner =>
      cases inner with
      | nil => cases h
      | cons m rest => rfl
  | _ => cases h

section

open Definition.Body (formTypeIn ofRequest)

variable {op : Operation} {definition schema content : Members} {cell : Option Nat}
  {name mediaType : String}

/-- The flags of an operation tell the form in the content of its definition. -/
theorem Operation.formType?_eq (hbody : ofRequest name (Members.find definition "requestBody") =
      .ok ⟨op.formUrlEncoded, op.multipart, op.bodyParameters⟩) :
    op.formType? = formTypeIn (Schema.contentOf definition) :=
  (Definition.Body.ofRequest_ok hbody).formTypeIn_eq.symm

/-- The form in a content is the one that a model is made for, unless it is empty. -/
theorem Schema.formMedia_of_isTruthy (htype : formTypeIn content = some mediaType)
    (hmedia : (Members.find content mediaType).isTruthy = true) :
    formMedia content = Members.find content mediaType := by
  unfold formMedia
  simp only []
  unfold formTypeIn at htype
  split at htype
  · cases htype
    exact if_pos hmedia
  · next hmissing =>
      split at htype
      · cases htype
        rw [Members.find, Option.not_isSome_iff_eq_none.1 hmissing]
        rfl
      · cases htype

/-- The form that an operation says it sends is the one that a model is made for, and it is named
after the operation if its schema is written out. -/
theorem form_of_formType? (hbody : ofRequest name (Members.find definition "requestBody") =
      .ok ⟨op.formUrlEncoded, op.multipart, op.bodyParameters⟩)
    (htype : op.formType? = some mediaType)
    (hschema : Schema.sentIn definition mediaType = .map cell schema)
    (href : Members.has schema (.str "$ref") = false) :
    op.bodyParameters = some name ∧
      Schema.formMedia (Schema.contentOf definition) =
        Members.find (Schema.contentOf definition) mediaType := by
  rw [Operation.formType?_eq hbody] at htype
  have hown := Definition.Body.schemaRef_isTruthy hschema href
  exact ⟨(Definition.Body.ofRequest_ok hbody).model_eq htype hown,
    Schema.formMedia_of_isTruthy htype (Value.isTruthy_of_find hschema)⟩

end

namespace Outline

variable {c : Conventions} {document : Value} {o : Outline}

/-! ## Where operations are read from -/

/-- Whether an operation is read from a definition among some paths. -/
def IsReadFrom (c : Conventions) (paths : Members) (op : Operation) (definition : Members) :
    Prop :=
  ∃ v ∈ Tree.visits c paths, v.operation? c op.method = some op.asExtracted ∧
    ∃ cell, Members.find v.item op.method = .map cell definition

/-- An operation of a node that a merge leaves is one that a visit finds. -/
theorem exists_visit_of_mem {merged : List Node} {paths : Members} {n : Node} {op : Operation}
    (h : (Tree.merge c paths).result = .ok merged) (hn : n ∈ merged) (hop : op ∈ n.operations) :
    ∃ v ∈ Tree.visits c paths, op.asExtracted ∈ v.operations c := by
  obtain ⟨-, hrun, -⟩ := Tree.merge_ok h
  have hperm := Tree.perm_run (c := c) Tree.keyed_nil (Tree.visits c (Tree.ordered paths))
  rw [← hrun] at hperm
  have hmem : op.asExtracted ∈ (merged.flatMap Node.operations).map Operation.asExtracted :=
    List.mem_map_of_mem (List.mem_flatMap.2 ⟨n, hn, hop⟩)
  obtain ⟨v, hv, hfound⟩ := List.mem_flatMap.1 (hperm.subset (List.mem_append_left _ hmem))
  exact ⟨v, (Tree.visits_ordered_perm c paths).mem_iff.1 hv, hfound⟩

/-- Every operation of a path tree is read from a definition of the document. -/
theorem exists_isReadFrom {nodes : List Node} {n : Node} {op : Operation}
    (h : (Tree.ofDocument c document).result = .ok nodes) (hn : n ∈ nodes)
    (hop : op ∈ n.operations) :
    ∃ definition, IsReadFrom c (Tree.pathsIn document) op definition := by
  obtain ⟨merged, hmerged, rfl⟩ := Tree.ofDocument_ok h
  rcases List.mem_append.1 ((Tree.sort_perm _).mem_iff.1 hn) with hreal | hbridge
  · obtain ⟨v, hv, hfound⟩ := exists_visit_of_mem (Tree.nodesOf_ok hmerged) hreal hop
    obtain ⟨method, _, hmethod⟩ := List.mem_filterMap.1 hfound
    have hsame : op.method = method := (Tree.Visit.isRecordOf_of_operation? hmethod).method_eq
    obtain ⟨cell, definition, hdefinition, _⟩ :=
      Definition.ofDefinition?_some (Tree.Visit.look_of_operation? hmethod)
    rw [← hsame] at hmethod hdefinition
    exact ⟨definition, v, hv, hmethod, cell, hdefinition⟩
  · rw [(Tree.bridge_is_empty hbridge).1] at hop
    cases hop

/-- An operation is what its definition is read as, which a path item has for its method. -/
theorem IsReadFrom.exists_item {paths definition : Members} {op : Operation}
    (h : IsReadFrom c paths op definition) :
    ∃ template cell item cell' endpoint, (template, .map cell item) ∈ paths ∧
      Members.find item op.method = .map cell' definition ∧ op.method ∈ c.methods ∧
      Definition.operation endpoint op.method definition = .ok op.asExtracted := by
  obtain ⟨v, hv, hmethod, cell', hdefinition⟩ := h
  obtain ⟨m, hm, hvisit⟩ := List.mem_filterMap.1 hv
  obtain ⟨cell, rfl, -⟩ := Tree.Visit.ofMember?_some hvisit
  have hlook := Tree.Visit.look_of_operation? hmethod
  obtain ⟨_, definition', hsame, hop⟩ := Definition.ofDefinition?_some hlook
  rw [hdefinition] at hsame
  cases hsame
  exact ⟨_, cell, v.item, cell', _, hm, hdefinition, Tree.Visit.mem_of_operation? hmethod, hop⟩

theorem isJson_pathsIn (h : document.isJson = true) :
    (Value.map none (Tree.pathsIn document)).isJson = true := by
  rw [Tree.pathsIn_eq]
  exact Value.isJson_membersOrNil (Value.isJson_find_membersOrNil h "paths")

/-- The models of a document include those of its operations. -/
theorem models_ok {models : List Model} (h : (Schema.models document).result = .ok models) :
    ∃ found writes, (Schema.operationModels [] (Schema.sites (Tree.pathsIn document))).result =
      .ok (found, writes) ∧ found ⊆ models := by
  obtain ⟨named, found, writes, _, hfound, rfl⟩ := Schema.models_parts h
  rw [Tree.pathsIn_eq]
  exact ⟨found, writes, hfound, fun model hm => List.mem_append_right _ (List.mem_cons_of_mem _ hm)⟩

/-- The models that are made for the definition of an operation. -/
theorem exists_models {models : List Model} {op : Operation} {definition : Members}
    (hjson : document.isJson = true) (hmethods : c.methods ⊆ Schema.httpMethods)
    (h : (Schema.models document).result = .ok models)
    (hread : IsReadFrom c (Tree.pathsIn document) op definition) (hid : op.operationId ≠ "") :
    (Value.map none definition).isJson = true ∧
    Definition.Body.ofRequest (op.operationId ++ "Request")
        (Members.find definition "requestBody") =
      .ok ⟨op.formUrlEncoded, op.multipart, op.bodyParameters⟩ ∧
    Definition.queryModel definition op.operationId = .ok op.queryParameters ∧
    ∃ form query, Schema.formModel definition (.str op.operationId) = .ok (form, []) ∧
      Schema.queryModel definition (.str op.operationId) = .ok query ∧
      ∀ model ∈ form.toList ++ query.toList, model ∈ models := by
  obtain ⟨template, _, item, cell, endpoint, hitem, hdefinition, hasked, hop⟩ := hread.exists_item
  obtain ⟨found, writes, hfound, hsub⟩ := models_ok h
  -- The definition is found in the document, so it is of JSON as well.
  have hpathsJson := isJson_pathsIn hjson
  have hdefinitionJson := Value.isJson_find (Value.isJson_of_mem hpathsJson hitem) op.method
  rw [hdefinition] at hdefinitionJson
  obtain ⟨htext, hbody, hquery⟩ := Definition.operation_parts hop
  obtain ⟨hstr, hfind⟩ := Definition.find_operationId hdefinitionJson htext hid
  rw [hstr] at hbody hquery
  have hsite := Schema.site_mem_sites hitem (hmethods hasked) hdefinition
  have htruthy : (Members.find definition "operationId").isTruthy = true := by
    rw [hfind]
    exact bne_iff_ne.2 hid
  have hmodels := Schema.models_mem_operationModels (Schema.isJson_of_mem_sites hpathsJson) hfound
    hsite rfl htruthy
  rw [hfind] at hmodels
  obtain ⟨form, query, hform, hqueryModel, hmem⟩ := hmodels
  refine ⟨?_, hbody, hquery, form, query, hform, hqueryModel, fun model hm => hsub (hmem model hm)⟩
  rw [(Value.isJson_map.1 hdefinitionJson).1] at hdefinitionJson
  exact hdefinitionJson

/-! ## Both sides together -/

/-- Whether a model bundles the query parameters of a definition: one field for each name, required
if one of the parameters with that name is. -/
structure Bundles (definition : Members) (model : Model) : Prop where
  names : model.fields.map Field.name =
    ((Schema.queryOf definition).map Schema.parameterName).eraseDups
  required : ∀ field ∈ model.fields,
    field.required = some (Schema.isRequired definition field.name)

/-- Whether a model has the fields of a schema. They are those that the schema has as a model, and
it is one unless its description is neither a text nor null. -/
structure HasFieldsOf (cell : Option Nat) (schema : Members) (model : Model) : Prop where
  read : Schema.fieldsIn schema = .ok model.fields
  same : ∀ name other, Schema.toModel (.str name) (.map cell schema) = .ok other →
    other.fields = model.fields
  isModel : Record.Checked.IsAccepted
      (Record.nullable Record.text (Members.find schema "description")) →
    ∃ other, Schema.toModel (.str model.name) (.map cell schema) = .ok other

theorem hasFieldsOf {cell : Option Nat} {schema : Members} {model : Model}
    (h : Schema.fieldsIn schema = .ok model.fields) : HasFieldsOf cell schema model where
  read := h
  same := by
    intro name other hother
    obtain ⟨-, hfields⟩ := Schema.toModel_ok hother
    exact Except.ok.inj (hfields.symm.trans h)
  isModel := by
    rintro ⟨description, hdescription⟩
    exact ⟨_, Schema.toModel_eq h hdescription model.name⟩

/-- In the outline of a JSON document, the names of query parameters and of forms are those of
models, but for the case of the first letter. Each operation with an id is read from a definition.
If it says how its query parameters are called, there is a model that bundles the query parameters
of that definition, and if it says that it sends a form whose schema is written out, there is a
model with the fields of that schema. -/
theorem operations_have_their_models {c : Conventions} {document : Value} {o : Outline}
    (hjson : document.isJson = true) (hmethods : c.methods ⊆ Schema.httpMethods)
    (h : (ofDocument c document).result = .ok o) :
    ∀ n ∈ o.nodes, ∀ op ∈ n.operations, op.operationId ≠ "" →
      (∃ definition, IsReadFrom c (Tree.pathsIn document) op definition) ∧
      ∀ definition, IsReadFrom c (Tree.pathsIn document) op definition →
        (∀ name, op.queryParameters = some name →
          ∃ model ∈ o.models, model.name = Naming.capitalizeFirst name ∧
            Bundles definition model) ∧
        ∀ mediaType cell schema, op.formType? = some mediaType →
          Schema.sentIn definition mediaType = .map cell schema →
          Members.has schema (.str "properties") = true →
          Members.has schema (.str "$ref") = false →
          ∃ name, op.bodyParameters = some name ∧
            ∃ model ∈ o.models, model.name = Naming.capitalizeFirst name ∧
              HasFieldsOf cell schema model := by
  intro n hn op hop hid
  obtain ⟨nodes, hnodes, h⟩ := Logged.result_bind_eq_ok.1 h
  obtain ⟨models, hmodels, h⟩ := Logged.result_bind_eq_ok.1 h
  cases h
  refine ⟨exists_isReadFrom hnodes hn hop, fun definition hread => ?_⟩
  obtain ⟨hdefinition, hbody, hquery, form, query, hform, hqueryModel, hmem⟩ :=
    exists_models hjson hmethods hmodels hread hid
  constructor
  · intro name hname
    rw [hname] at hquery
    obtain ⟨rfl, hne⟩ := Definition.queryModel_eq_some hquery
    obtain ⟨model, rfl, hmodel, hnames, hrequired⟩ :=
      Schema.queryModel_ok hdefinition hne hqueryModel
    refine ⟨model, hmem model (List.mem_append_right _ (by simp)), ?_, hnames, hrequired⟩
    rw [hmodel, Naming.capitalizeFirst_append hid]
  · intro mediaType cell schema htype hschema hproperties href
    obtain ⟨hname, hmedia⟩ := form_of_formType? hbody htype hschema href
    have hwritten : Schema.writtenForm definition = some (cell, schema) := by
      rw [Schema.writtenForm_eq_some, hmedia]
      exact ⟨hschema, hproperties⟩
    obtain ⟨-, hforms⟩ := Schema.formModel_ok hdefinition hform
    obtain ⟨model, rfl, hmodel, hfields⟩ := hforms cell schema hwritten
    refine ⟨_, hname, model, hmem model (List.mem_append_left _ (by simp)), ?_,
      hasFieldsOf hfields⟩
    rw [Naming.capitalizeFirst_append hid]
    exact (Except.ok.inj hmodel).symm

/-! ## Files

Files are sent in a form. Two of the query parameters have one name, and only
the second of them is required. -/

def formSchema : Members :=
  [(.str "properties", .ofMembers
      [(.str "file", .ofMembers [(.str "type", .str "string"), (.str "format", .str "binary")])]),
    (.str "required", .list [.str "file"])]

def uploadParameters : List Members :=
  [[(.str "name", .str "tag"), (.str "in", .str "query")],
    [(.str "name", .str "trace"), (.str "in", .str "header")],
    [(.str "name", .str "size"), (.str "in", .str "query")],
    [(.str "name", .str "tag"), (.str "in", .str "query"), (.str "required", .bool true)]]

def uploadDefinition : Members :=
  [(.str "operationId", .str "upload"),
    (.str "parameters", .list (uploadParameters.map Value.ofMembers)),
    (.str "requestBody", .ofMembers [(.str "content", .ofMembers
      [(.str "multipart/form-data", .ofMembers [(.str "schema", .ofMembers formSchema)])])]),
    (.str "responses", .ofMembers [(.str "200", .ofMembers [])])]

def filesPaths : Members :=
  [(.str "/files", .ofMembers [(.str "post", .ofMembers uploadDefinition)])]

def filesDocument : Value := .ofMembers [(.str "paths", .ofMembers filesPaths)]

def uploadOperation : Operation :=
  ⟨"/files", "post", "post", "upload", none, none, none, none, none, none, false, none,
    some "uploadParameters", some "uploadRequest", none, some true⟩

def filesNode : Node where
  segments := ["files"]
  parameter := none
  defaultParameter := none
  operations := [uploadOperation]
  endpoint := some "/files"

/-- A field with a name and a mark. -/
def namedField (name : String) (ref : Option String) (required : Bool) : Field :=
  ⟨some name, none, ref, none, none, none, none, none, none, none, none, some required⟩

def uploadForm : Model where
  name := "UploadRequest"
  description := some "Request body for operation upload"
  fields := [namedField "file" (some "Attachment") true]

def uploadQuery : Model where
  name := "UploadParameters"
  description := some "Query parameters for operation upload"
  fields := [namedField "tag" none true, namedField "size" none false]

def filesOutline : Outline where
  models := [.attachment, uploadForm, uploadQuery]
  nodes := [filesNode]

/-- The properties that the query parameters become. -/
def uploadProperties : Members :=
  [(.str "tag", .ofMembers [(.str "name", .str "tag"), (.str "required", .bool true)]),
    (.str "size", .ofMembers [(.str "name", .str "size")])]

/-- The schema of the form with the description that it gets. -/
def describedSchema : Members :=
  Members.set formSchema "description" (.str "Request body for operation upload")

theorem fieldsIn_formSchema :
    Schema.fieldsIn formSchema = .ok [namedField "file" (some "Attachment") true] := by
  cbv

theorem fieldsIn_describedSchema :
    Schema.fieldsIn describedSchema = .ok [namedField "file" (some "Attachment") true] :=
  (Schema.fieldsIn_set _ (by decide) (by decide)).trans fieldsIn_formSchema

theorem formModel_upload :
    Schema.formModel uploadDefinition (.str "upload") = .ok (some uploadForm, []) := by
  have hmodel : Schema.toModel (.str "UploadRequest") (.ofMembers describedSchema) =
      .ok uploadForm := Schema.toModel_eq fieldsIn_describedSchema rfl "UploadRequest"
  show (Schema.toModel (.str "UploadRequest") (.ofMembers describedSchema) >>= _) = _
  rw [hmodel]
  rfl

theorem queryModel_upload :
    Schema.queryModel uploadDefinition (.str "upload") = .ok (some uploadQuery) := by
  have hproperties : Schema.parameterProperties (Schema.queryParameters uploadParameters) [] =
      .ok uploadProperties := rfl
  have hfields : Schema.fieldsOf
      (.list (Schema.requiredNames (Schema.queryParameters uploadParameters))) uploadProperties =
        .ok [namedField "tag" none true, namedField "size" none false] := by
    show Schema.fieldsOf (.list [.str "tag"]) uploadProperties = _
    cbv
  exact Schema.queryModel_eq rfl (List.cons_ne_nil _ _) hproperties hfields

theorem result_models_files :
    (Schema.models filesDocument).result = .ok filesOutline.models := by
  have hmodels : Schema.modelsOf (.ofMembers uploadDefinition) (.str "upload") =
      .ok ([uploadForm, uploadQuery], []) := by
    show (Schema.formModel uploadDefinition (.str "upload") >>= _) = _
    rw [formModel_upload]
    show (Schema.queryModel uploadDefinition (.str "upload") >>= _) = _
    rw [queryModel_upload]
    rfl
  have hsites : Schema.sites filesPaths =
      [⟨.str "/files", "post", .ofMembers uploadDefinition⟩] := rfl
  have hpaths : (Members.find [(.str "paths", .ofMembers filesPaths)] "paths").membersIfAny =
      .ok filesPaths := rfl
  exact Schema.result_models_single rfl rfl hpaths hsites rfl rfl hmodels

theorem result_tree_files :
    (Tree.ofDocument Tree.shelfConventions filesDocument).result = .ok [filesNode] := by
  have hordered : Tree.ordered filesPaths = filesPaths := List.mergeSort_singleton _
  have hmerge : (Tree.merge Tree.shelfConventions filesPaths).result = .ok [filesNode] := by
    rw [Tree.merge, if_pos (by decide +kernel), hordered]
    rfl
  have hnodes : (Tree.nodesOf Tree.shelfConventions filesDocument).result = .ok [filesNode] :=
    hmerge
  rw [Tree.ofDocument, Logged.result_bind, hnodes]
  exact congrArg Except.ok (List.mergeSort_singleton _)

theorem operations_have_their_models_of_files :
    filesDocument.isJson = true ∧ Tree.shelfConventions.methods ⊆ Schema.httpMethods ∧
    (ofDocument Tree.shelfConventions filesDocument).result = .ok filesOutline ∧
    filesNode ∈ filesOutline.nodes ∧ uploadOperation ∈ filesNode.operations ∧
    uploadOperation.operationId ≠ "" ∧
    IsReadFrom Tree.shelfConventions (Tree.pathsIn filesDocument) uploadOperation uploadDefinition ∧
    (∃ model ∈ filesOutline.models, model.name = "UploadParameters" ∧
      model.fields.map Field.name = [some "tag", some "size"]) ∧
    ∃ model ∈ filesOutline.models, model.name = "UploadRequest" ∧
      HasFieldsOf none formSchema model := by
  have hjson : filesDocument.isJson = true := by decide +kernel
  have hmethods : Tree.shelfConventions.methods ⊆ Schema.httpMethods := by decide
  have houtline : (ofDocument Tree.shelfConventions filesDocument).result = .ok filesOutline := by
    rw [ofDocument, Logged.result_bind, result_tree_files]
    show (Schema.models filesDocument >>= _).result = _
    rw [Logged.result_bind, result_models_files]
    rfl
  have hread : IsReadFrom Tree.shelfConventions (Tree.pathsIn filesDocument) uploadOperation
      uploadDefinition :=
    ⟨⟨⟨"/files", "/files"⟩, [(.str "post", .ofMembers uploadDefinition)]⟩, List.mem_cons_self,
      rfl, none, rfl⟩
  have hnode : filesNode ∈ filesOutline.nodes := List.mem_cons_self
  have hop : uploadOperation ∈ filesNode.operations := List.mem_cons_self
  have hid : uploadOperation.operationId ≠ "" := by decide
  obtain ⟨-, hall⟩ :=
    operations_have_their_models hjson hmethods houtline filesNode hnode uploadOperation hop hid
  obtain ⟨hquery, hform⟩ := hall uploadDefinition hread
  obtain ⟨model, hmodel, hname, hbundles⟩ := hquery "uploadParameters" rfl
  obtain ⟨name, hbody, form, hformModel, hformName, hfields⟩ :=
    hform Definition.multipartMediaType none formSchema rfl rfl rfl rfl
  cases hbody
  exact ⟨hjson, hmethods, houtline, hnode, hop, hid, hread,
    ⟨model, hmodel, hname, hbundles.names⟩, form, hformModel, hformName, hfields⟩

end Outline

end ApiOutline
