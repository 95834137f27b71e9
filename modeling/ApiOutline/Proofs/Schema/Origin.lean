import ApiOutline.Proofs.Schema.Extract
import ApiOutline.Proofs.Schema.Property
import ApiOutline.Proofs.Schema.Writes

/-!
# Where fields come from

Every model other than that of attachments is made from a schema with a name,
from the form of an operation or from the query parameters of one. So each of
its fields, at every depth, is read from an object of the document: a property
of such a schema, a query parameter, or the `items` of one of these
(`IsObjectOf`).

An operation may be read after descriptions have been written into its
definition. The field then shows an object that differs from the one in the
document in its description only, and no part of `Shows` looks there
(`isDepicted_of_mem`). Nor does one look at the free values of a field, which
are written to after the field is made.
-/

namespace ApiOutline

/-- The fields of an attachment have no elements. -/
theorem Field.Within.eq_of_mem_attachment {f g : Field} (hwithin : f.Within g)
    (hf : f ∈ Model.attachment.fields) : g = f := by
  have hflat : ∀ f ∈ Model.attachment.fields, f.items = none := by decide +kernel
  exact hwithin.eq_of_flat (hflat f hf)

namespace Schema

open Record (Checked)

variable {document : Value} {models : List Model} {model : Model} {f g : Field} {s : Site}
  {object object' definition : Members} {operationId : Value}

/-! ## The parts of a document -/

/-- The schemas of a document that have a name. -/
def schemasIn (document : Value) : Members :=
  (Members.find (Members.find document.membersOrNil "components").membersOrNil
    "schemas").membersOrNil

/-- The operations of a document. -/
def sitesIn (document : Value) : List Site :=
  sites (Members.find document.membersOrNil "paths").membersOrNil

/-- The members of an operation's definition. -/
def Site.members (s : Site) : Members := s.definition.membersOrNil

/-- The properties of a schema. -/
def propertiesOf (schema : Members) : Members :=
  (Members.find schema "properties").membersOrNil

/-- Whether an operation has an id that models can be named after. -/
structure Site.HasId (s : Site) (id : String) : Prop where
  found : Members.find s.members "operationId" = .str id
  ne_empty : id ≠ ""

/-- The objects that the fields of a model are read from, each with its key. What is no mapping is
read as an object without members, and so is a description that was written among properties. -/
inductive IsPropertyOf (document : Value) : String → Value → Members → Prop
  | named {k key v : Value} {c : Option Nat} {name : String} {schema : Members}
      (isNamed : (k, .map c schema) ∈ schemasIn document) (hasName : Record.text k = .accepted name)
      (isProperty : (key, v) ∈ propertiesOf schema) :
      IsPropertyOf document name key v.membersOrNil
  | form {s : Site} {id : String} {c : Option Nat} {schema : Members} {key v : Value}
      (isSite : s ∈ sitesIn document) (hasId : s.HasId id)
      (isForm : writtenForm s.members = some (c, schema))
      (isProperty : (key, v) ∈ propertiesOf schema) :
      IsPropertyOf document (Naming.capitalizeFirst id ++ "Request") key v.membersOrNil
  | query {s : Site} {id : String} {p object : Members} {name key : Value}
      (isSite : s ∈ sitesIn document) (hasId : s.HasId id) (isQuery : p ∈ queryOf s.members)
      (hasName : Members.find? p "name" = some name)
      (sameKey : key = name ∨ key.sameKey name = true)
      (isObject : parameterProperty p = .ok object) :
      IsPropertyOf document (Naming.capitalizeFirst id ++ "Parameters") key object
  | description (name : String) : IsPropertyOf document name (.str "description") []

/-- The objects of a document that fields are read from. -/
inductive IsObjectOf (document : Value) : Members → Prop
  | property {name : String} {key : Value} {object : Members}
      (isProperty : IsPropertyOf document name key object) : IsObjectOf document object
  | elements {object inner : Members} {c : Option Nat} (isObject : IsObjectOf document object)
      (isItems : Members.find? object "items" = some (.map c inner)) : IsObjectOf document inner

/-- Whether an object and a field are as many steps into `items` beneath two others. -/
inductive Beneath : Members → Field → Members → Field → Prop
  | here (object : Members) (f : Field) : Beneath object f object f
  | elements {object inner inmost : Members} {c : Option Nat} {f g h : Field}
      (items : f.items = some g) (found : Members.find? object "items" = some (.map c inner))
      (beneath : Beneath inner g inmost h) : Beneath object f inmost h

/-! ## Models and their schemas -/

theorem namedModels_ok {schemas : Members} (h : namedModels schemas = .ok models) :
    List.Forall₂ (fun p model => toModel p.1 p.2 = .ok model) schemas models := by
  induction schemas generalizing models with
  | nil => cases h; exact .nil
  | cons p rest ih =>
      obtain ⟨model, hmodel, h⟩ := bind_eq_ok.1 h
      obtain ⟨others, hothers, h⟩ := bind_eq_ok.1 h
      cases h
      exact .cons hmodel (ih hothers)

theorem eq_schemasIn (document : Value) {schemas : Members}
    (h : namedSchemas document.membersOrNil = .ok schemas) :
    schemas = schemasIn document := by
  obtain ⟨components, hcomponents, hschemas⟩ := bind_eq_ok.1 h
  rw [Value.eq_membersOrNil hschemas, Value.eq_membersOrNil hcomponents]
  rfl

/-- The models of a document are those of its named schemas, as they are after all writes, that of
attachments, and those of its operations. -/
theorem models_parts (h : (Schema.models document).result = .ok models) :
    ∃ named found writes, namedModels (schemasIn document) = .ok named ∧
      (operationModels [] (sitesIn document)).result = .ok (found, writes) ∧
      models = writes.settle named ++ Model.attachment :: found := by
  obtain ⟨ms, hms, h⟩ := Logged.result_bind_eq_ok.1 h
  obtain ⟨schemas, hschemas, h⟩ := Logged.result_bind_eq_ok.1 h
  obtain ⟨named, hnamed, h⟩ := Logged.result_bind_eq_ok.1 h
  obtain ⟨paths, hpaths, h⟩ := Logged.result_bind_eq_ok.1 h
  obtain ⟨⟨found, writes⟩, hfound, h⟩ := Logged.result_bind_eq_ok.1 h
  cases h
  obtain ⟨cell, rfl⟩ := Value.members_eq_ok hms
  rw [eq_schemasIn (.map cell ms) hschemas] at hnamed
  rw [Value.eq_membersOrNil hpaths] at hfound
  exact ⟨named, found, writes, hnamed, hfound, rfl⟩

/-- Whether a model is made for an operation with some id, after some descriptions have been
written. -/
inductive IsMadeFor (s : Site) (operationId : Value) (model : Model) : Prop
  | form {ws writes : Writes} {c : Option Nat} {definition : Members}
      (written : ws.apply s.definition = .map c definition)
      (made : formModel definition operationId = .ok (some model, writes))
  | query {ws : Writes} {c : Option Nat} {definition : Members}
      (written : ws.apply s.definition = .map c definition)
      (made : queryModel definition operationId = .ok (some model))

theorem isMadeFor_of_modelsOf {ws writes : Writes}
    (h : modelsOf (ws.apply s.definition) operationId = .ok (models, writes))
    (hmodel : model ∈ models) : IsMadeFor s operationId model := by
  obtain ⟨definition, hdefinition, h⟩ := bind_eq_ok.1 h
  obtain ⟨c, hmap⟩ := Value.members_eq_ok hdefinition
  obtain ⟨⟨form, writes'⟩, hform, h⟩ := bind_eq_ok.1 h
  obtain ⟨described, hdescribed, h⟩ := bind_eq_ok.1 h
  obtain ⟨query, hquery, h⟩ := bind_eq_ok.1 h
  cases h
  rcases List.mem_append.1 hmodel with hmem | hmem
  · rw [Option.mem_toList.1 hmem] at hform
    exact .form hmap hform
  · obtain ⟨c', hmap'⟩ := Value.members_eq_ok hdescribed
    rw [← Writes.apply_append] at hmap'
    rw [Option.mem_toList.1 hmem] at hquery
    exact .query hmap' hquery

/-- A model of an operation is one that was made for it, as it is after the writes that followed. -/
theorem exists_isMadeFor {ws writes : Writes} {sites : List Site}
    (h : (operationModels ws sites).result = .ok (models, writes)) (hmodel : model ∈ models) :
    ∃ s ∈ sites, ∃ ws' : Writes,
      (ws'.apply (Members.find s.members "operationId")).isTruthy = true ∧
      ∃ made later, IsMadeFor s (ws'.apply (Members.find s.members "operationId")) made ∧
        model = made.mapFree (Writes.apply later) := by
  induction sites generalizing ws models writes with
  | nil =>
      cases h
      cases hmodel
  | cons s rest ih =>
      rw [operationModels] at h
      obtain ⟨definition, hdefinition, h⟩ := Logged.result_bind_eq_ok.1 h
      obtain ⟨c, hmap⟩ := Value.members_eq_ok hdefinition
      have hmembers := Writes.alike_membersOrNil ws s.definition
      rw [hmap] at hmembers
      have hid : Members.find definition "operationId" =
          ws.apply (Members.find s.members "operationId") := hmembers.find (by decide)
      simp only [] at h
      split at h
      · next htruthy =>
          obtain ⟨⟨added, writes⟩, hadded, h⟩ := Logged.result_bind_eq_ok.1 h
          obtain ⟨⟨others, later⟩, hothers, h⟩ := Logged.result_bind_eq_ok.1 h
          cases h
          rcases List.mem_append.1 hmodel with hmem | hmem
          · obtain ⟨made, hbefore, rfl⟩ := Writes.mem_settle.1 hmem
            rw [hid] at htruthy
            have hmade := isMadeFor_of_modelsOf hadded hbefore
            rw [hid] at hmade
            exact ⟨s, List.mem_cons_self, ws, htruthy, made, later, hmade, rfl⟩
          · obtain ⟨t, ht, hmade⟩ := ih hothers hmem
            exact ⟨t, List.mem_cons_of_mem _ ht, hmade⟩
      · obtain ⟨_, _, h⟩ := Logged.result_bind_eq_ok.1 h
        obtain ⟨t, ht, hmade⟩ := ih h hmodel
        exact ⟨t, List.mem_cons_of_mem _ ht, hmade⟩

theorem mem_parameterProperties {ps : List Members} {done properties : Members} {k v : Value}
    (h : parameterProperties ps done = .ok properties) (hmem : (k, v) ∈ properties) :
    (k, v) ∈ done ∨ ∃ p ∈ ps, ∃ object name, parameterProperty p = .ok object ∧
      v = .ofMembers object ∧ Members.find? p "name" = some name ∧ name.isKey = true ∧
      (k = name ∨ k.sameKey name = true) := by
  induction ps generalizing done with
  | nil =>
      cases h
      exact Or.inl hmem
  | cons p rest ih =>
      obtain ⟨object, hobject, h⟩ := bind_eq_ok.1 h
      split at h
      · cases h
      · next name hname =>
          split at h
          · next hkey =>
              rcases ih h with hput | ⟨q, hq, hfound⟩
              · rcases Members.mem_put hput with hdone | ⟨hsame, hv⟩
                · exact Or.inl hdone
                · exact Or.inr
                    ⟨p, List.mem_cons_self, object, name, hobject, hv, hname, hkey, hsame⟩
              · exact Or.inr ⟨q, List.mem_cons_of_mem _ hq, hfound⟩
          · cases h

/-! ## Objects that were written to -/

/-- Whether two objects are the same to the shape of a field, some descriptions written into the
second one. -/
def SameShape (ws : Writes) (object object' : Members) : Prop :=
  ∀ key ∈ shaping, Members.find? object' key = (Members.find? object key).map ws.apply

variable {ws : Writes}

theorem Writes.Alike.sameShape (h : ws.Alike object object') : SameShape ws object object' := by
  intro key hkey
  refine h.find? ?_
  rintro rfl
  exact absurd hkey (by decide)

theorem find?_draft_of_shaping {key : String} (hkey : key ∈ shaping) (required k v : Value) :
    Members.find? (draft required k v) key = Members.find? v.membersOrNil key := by
  refine find?_draft_of_notMem (fun hlabel => ?_) required k v
  simp only [List.mem_cons, List.not_mem_nil, or_false] at hlabel
  rcases hlabel with rfl | rfl <;> exact absurd hkey (by decide)

theorem SameShape.find (h : SameShape ws object object') {key : String} (hkey : key ∈ shaping) :
    Members.find object' key = ws.apply (Members.find object key) := by
  rw [Members.find, h key hkey, Members.find]
  cases Members.find? object key with
  | none => exact (Writes.apply_null ws).symm
  | some v => rfl

theorem keptType_apply (ws : Writes) (v : Value) :
    keptType (ws.apply v) = ws.apply (keptType v) := by
  cases v with
  | list types =>
      rw [Writes.apply_list, keptType, keptType, List.find?_map]
      have hsame : ((fun t : Value => !t.isStr "null") ∘ ws.apply) = fun t => !t.isStr "null" := by
        funext t
        exact congrArg _ (Writes.isStr_apply ws t "null")
      rw [hsame]
      cases types.find? fun t => !t.isStr "null" with
      | none => exact (Writes.apply_null ws).symm
      | some t => rfl
  | map c ms =>
      obtain ⟨ms', hms', -⟩ := Writes.apply_map ws c ms
      exact (congrArg keptType hms').trans hms'.symm
  | _ =>
      rw [Writes.apply_scalar (by simp) (by simp)]
      exact (Writes.apply_scalar (by simp [keptType]) (by simp [keptType])).symm

/-- What a field shows of an object it shows of any object of the same shape. -/
theorem Shows.of_sameShape (hsame : SameShape ws object object') (h : Shows object' f) :
    Shows object f := by
  have hbinary : isBinary object' = isBinary object := by
    unfold isBinary
    rw [hsame.find (by decide), hsame.find (by decide), Writes.isStr_apply, Writes.isStr_apply,
      Writes.isStr_apply]
  have htype := h.type
  have hformat := h.format
  rw [hbinary, hsame.find (by decide), keptType_apply, Writes.nullable_text_apply] at htype
  rw [hbinary, hsame.find (by decide), Writes.nullable_text_apply] at hformat
  refine ⟨hbinary ▸ h.binary, htype, hformat, fun hother v hv => ?_, fun hother hnone hplain => ?_⟩
  · have hfound := hsame "$ref" (by decide)
    rw [hv] at hfound
    obtain ⟨ref, href, hname⟩ := h.ref (hbinary.trans hother) _ hfound
    have hstr := Writes.isStr_apply ws v ref
    rw [href] at hstr
    exact ⟨ref, Value.isStr_iff.1 (hstr.symm.trans (Value.isStr_iff.2 rfl)), hname⟩
  · refine h.noRef (hbinary.trans hother) ?_ ?_
    · rw [hsame "$ref" (by decide), hnone]
      rfl
    · rw [hsame "ref" (by decide), hplain]
      rfl

theorem Depicts.of_sameShape (hsame : SameShape ws object object') (h : Depicts object' f) :
    Depicts object f := by
  induction h generalizing object with
  | flat hshows hitems => exact .flat (hshows.of_sameShape hsame) hitems
  | list hshows hitems hfound _ ih =>
      rw [hsame "items" (by decide)] at hfound
      obtain ⟨v, hv, happly⟩ := Option.map_eq_some_iff.1 hfound
      obtain ⟨inner, rfl, hdescribed⟩ := Writes.map_of_apply happly
      exact .list (hshows.of_sameShape hsame) hitems hv (ih hdescribed.alike.sameShape)

/-- The shape of a field has nothing to do with its free values. -/
theorem Depicts.mapFree (h : Depicts object f) (change : Value → Value) :
    Depicts object (f.mapFree change) := by
  induction h with
  | @flat object f hshows hitems =>
      rw [Field.mapFree_eq]
      exact .flat ⟨hshows.binary, hshows.type, hshows.format, hshows.ref, hshows.noRef⟩
        (congrArg (Option.map _) hitems)
  | @list object inner c f g hshows hitems hfound _ ih =>
      rw [Field.mapFree_eq]
      exact .list ⟨hshows.binary, hshows.type, hshows.format, hshows.ref, hshows.noRef⟩
        (congrArg (Option.map _) hitems) hfound ih

/-- A field depicts the object that its property has the shape of. -/
theorem depicts_of_fieldOf {required k v : Value} (h : fieldOf required (k, v) = .ok f)
    (hsame : SameShape ws object v.membersOrNil) : Depicts object f := by
  have hdepicts : Depicts (draft required k v) f := depicts_of_gives (fieldOf_eq_ok.1 h)
  have hdraft : SameShape ws object (draft required k v) := fun key hkey => by
    rw [find?_draft_of_shaping hkey, hsame key hkey]
  exact hdepicts.of_sameShape hdraft

/-- Whether a field of a model is called after the key of an object of the document, and depicts
that object. -/
def IsDepicted (document : Value) (model : Model) (f : Field) : Prop :=
  ∃ key object, IsPropertyOf document model.name key object ∧
    Record.nullable Record.text key = .accepted f.name ∧ Depicts object f

theorem IsDepicted.mapFree (h : IsDepicted document model f) {change : Value → Value} :
    IsDepicted document (model.mapFree change) (f.mapFree change) := by
  obtain ⟨key, object, hproperty, hname, hdepicts⟩ := h
  refine ⟨key, object, hproperty, ?_, hdepicts.mapFree change⟩
  rw [Field.mapFree_eq]
  exact hname

theorem isDepicted_of_fieldsOf {required : Value} {properties : Members} {fields : List Field}
    (hfields : fieldsOf required properties = .ok fields)
    (hobjects : ∀ k v, (k, v) ∈ properties → ∃ object, IsPropertyOf document model.name k object ∧
      ∃ ws, SameShape ws object v.membersOrNil)
    (hf : f ∈ fields) : IsDepicted document model f := by
  obtain ⟨⟨k, v⟩, hp, hfield⟩ := (exists_mem_of_forall₂ (fieldsOf_ok hfields)).1 f hf
  obtain ⟨object, hobject, ws, hsame⟩ := hobjects k v hp
  exact ⟨k, object, hobject, (fieldOf_ok hfield).1, depicts_of_fieldOf hfield hsame⟩

/-- The properties of a schema that was written to show those of the schema, and a description that
was written among them is a text and shows nothing. -/
theorem isDepicted_of_described {schema schema' : Members}
    (hobjects : ∀ k v, (k, v) ∈ propertiesOf schema →
      IsPropertyOf document model.name k v.membersOrNil)
    (hdescribed : ws.Described schema schema') (hfields : fieldsIn schema' = .ok model.fields)
    (hf : f ∈ model.fields) : IsDepicted document model f := by
  obtain ⟨properties, hproperties, hfields⟩ := bind_eq_ok.1 hfields
  rw [Value.eq_membersOrNil hproperties] at hfields
  refine isDepicted_of_fieldsOf hfields (fun k v hv => ?_) hf
  rw [hdescribed.alike.find (by decide)] at hv
  rcases Writes.mem_membersOrNil_apply hv with ⟨w, hw, rfl⟩ | ⟨text, rfl, rfl⟩
  · exact ⟨w.membersOrNil, hobjects k w hw, ws, (Writes.alike_membersOrNil ws w).sameShape⟩
  · exact ⟨[], .description model.name, ws, fun key _ => rfl⟩

/-! ## Operations that were written to -/

variable {definition' : Members}

theorem contentOf_alike (h : ws.Alike definition definition') :
    ws.Alike (contentOf definition) (contentOf definition') := by
  have hbody := Writes.alike_membersOrNil ws (Members.find definition "requestBody")
  rw [← h.find (by decide)] at hbody
  have hcontent := Writes.alike_membersOrNil ws
    (Members.find (Members.find definition "requestBody").membersOrNil "content")
  rw [← hbody.find (by decide)] at hcontent
  exact hcontent

/-- A form that is found afterwards was there before. -/
theorem writtenForm_of_alike {c : Option Nat} {schema' : Members}
    (h : ws.Alike definition definition') (hform : writtenForm definition' = some (c, schema')) :
    ∃ schema, writtenForm definition = some (c, schema) ∧ ws.Described schema schema' := by
  obtain ⟨hschema', hhas'⟩ := writtenForm_eq_some.1 hform
  have hcontent := contentOf_alike h
  have hplain := hcontent.find (show Definition.formMediaType ≠ "description" by decide)
  have hparts := hcontent.find (show Definition.multipartMediaType ≠ "description" by decide)
  have hschemaOf : ∀ media : Value, Members.find (ws.apply media).membersOrNil "schema" =
      ws.apply (Members.find media.membersOrNil "schema") := fun media =>
    (Writes.alike_membersOrNil ws media).find (by decide)
  have hmedia : Members.find (formMedia (contentOf definition')).membersOrNil "schema" =
      ws.apply (Members.find (formMedia (contentOf definition)).membersOrNil "schema") := by
    unfold formMedia at hschema' ⊢
    simp only [hplain, hparts] at hschema' ⊢
    cases htruthy : (Members.find (contentOf definition) Definition.formMediaType).isTruthy with
    | true =>
        rw [if_pos (Writes.isTruthy_apply ws htruthy), if_pos rfl]
        exact hschemaOf _
    | false =>
        rw [if_neg Bool.false_ne_true]
        split
        · next hwritten =>
            -- Nothing but a description was written into what was empty: there is no form.
            rw [if_pos hwritten, hschemaOf, Value.membersOrNil_of_falsy htruthy] at hschema'
            cases (Writes.apply_null ws).symm.trans hschema'
        · exact hschemaOf _
  rw [hmedia] at hschema'
  obtain ⟨schema, hschema, hdescribed⟩ := Writes.map_of_apply hschema'
  refine ⟨schema, writtenForm_eq_some.2 ⟨hschema, ?_⟩, hdescribed⟩
  obtain ⟨v, hv⟩ := Members.has_str_iff.1 hhas'
  rw [hdescribed.alike.find? (by decide)] at hv
  obtain ⟨w, hw, -⟩ := Option.map_eq_some_iff.1 hv
  exact Members.has_str_iff.2 ⟨w, hw⟩

theorem queryOf_of_alike {p' : Members} (h : ws.Alike definition definition')
    (hp' : p' ∈ queryOf definition') : ∃ p ∈ queryOf definition, ws.Alike p p' := by
  obtain ⟨hmem, hin⟩ := List.mem_filter.1 hp'
  rw [h.find (by decide)] at hmem
  cases hparameters : Members.find definition "parameters" with
  | list items =>
      rw [hparameters, Writes.apply_list] at hmem
      obtain ⟨item, hitem, hmap⟩ := List.mem_filterMap.1 hmem
      obtain ⟨v, hv, happly⟩ := List.mem_map.1 hitem
      cases item with
      | map c ms =>
          cases hmap
          obtain ⟨p, rfl, hdescribed⟩ := Writes.map_of_apply happly
          refine ⟨p, List.mem_filter.2 ⟨?_, ?_⟩, hdescribed.alike⟩
          · rw [hparameters]
            exact List.mem_filterMap.2 ⟨_, hv, rfl⟩
          · rw [hdescribed.alike.find (by decide), Writes.isStr_apply] at hin
            exact hin
      | _ => cases hmap
  | map c ms =>
      obtain ⟨ms', hms', -⟩ := Writes.apply_map ws c ms
      rw [hparameters, hms'] at hmem
      cases hmem
  | _ =>
      rw [hparameters, Writes.apply_scalar (by simp) (by simp)] at hmem
      cases hmem

theorem parameterProperty_of_alike {p p' : Members} (h : ws.Alike p p')
    (hobject : parameterProperty p' = .ok object') :
    ∃ object, parameterProperty p = .ok object ∧ ws.Alike object object' := by
  rw [parameterProperty_eq, h.find (by decide), Writes.lacksMembers_apply] at hobject
  rw [parameterProperty_eq]
  split at hobject
  · cases hobject
  · next hmembers =>
      cases hobject
      rw [if_neg hmembers]
      exact ⟨_, rfl, ((h.overlay (Writes.alike_membersOrNil ws _)).erase "in").erase "schema"⟩

/-- A name is made of an id that is a text, and no write makes another id a text. -/
theorem hasId_of_modelName {suffix name : String}
    (hid : (ws.apply (Members.find s.members "operationId")).isTruthy = true)
    (h : Naming.modelName (ws.apply (Members.find s.members "operationId")) suffix = .ok name) :
    ∃ id, s.HasId id ∧ name = Naming.capitalizeFirst id ++ suffix := by
  cases hfound : ws.apply (Members.find s.members "operationId") with
  | str id =>
      rw [hfound] at hid h
      have hstr := Writes.isStr_apply ws (Members.find s.members "operationId") id
      rw [hfound, Value.isStr_iff.2 rfl] at hstr
      exact ⟨id, ⟨Value.isStr_iff.1 hstr.symm, bne_iff_ne.1 hid⟩, (Except.ok.inj h).symm⟩
  | _ =>
      rw [hfound] at h
      cases h

theorem isDepicted_of_isMadeFor (hs : s ∈ sitesIn document)
    (hid : (ws.apply (Members.find s.members "operationId")).isTruthy = true)
    (hmade : IsMadeFor s (ws.apply (Members.find s.members "operationId")) model)
    (hf : f ∈ model.fields) : IsDepicted document model f := by
  have hmembers : ∀ {c definition}, s.definition = .map c definition → s.members = definition := by
    intro c definition h
    rw [Site.members, h]
    rfl
  cases hmade with
  | form hwritten hmade =>
      obtain ⟨definition, hdefinition, hdescribed⟩ := Writes.map_of_apply hwritten
      obtain ⟨c, schema', hform', hname, hfields⟩ := formModel_some hmade
      obtain ⟨schema, hform, hschema⟩ := writtenForm_of_alike hdescribed.alike hform'
      obtain ⟨id, hasId, hname⟩ := hasId_of_modelName hid hname
      rw [← hmembers hdefinition] at hform
      refine isDepicted_of_described (fun k v hv => ?_) hschema hfields hf
      rw [hname]
      exact .form hs hasId hform hv
  | query hwritten hmade =>
      obtain ⟨definition, hdefinition, hdescribed⟩ := Writes.map_of_apply hwritten
      rcases isQueryModel_of_queryModel hmade with _ | ⟨hproperties, hname, hfields⟩
      obtain ⟨id, hasId, hname⟩ := hasId_of_modelName hid hname
      refine isDepicted_of_fieldsOf hfields (fun k v hv => ?_) hf
      rcases mem_parameterProperties hproperties hv with
        hnone | ⟨p', hp', object', name, hobject', rfl, hfind, hkey, hsameKey⟩
      · cases hnone
      obtain ⟨p, hp, halike⟩ := queryOf_of_alike hdescribed.alike hp'
      obtain ⟨object, hobject, hsame⟩ := parameterProperty_of_alike halike hobject'
      rw [← hmembers hdefinition] at hp
      rw [halike.find? (by decide)] at hfind
      obtain ⟨v, hv, happly⟩ := Option.map_eq_some_iff.1 hfind
      refine ⟨object, ?_, _, hsame.sameShape⟩
      rw [hname]
      exact .query hs hasId hp (hv.trans (congrArg some (Writes.eq_of_apply_isKey happly hkey)))
        hsameKey hobject

/-- Every field of a model depicts an object of the document, but for the fields of the model of
attachments. -/
theorem isDepicted_of_mem (h : (Schema.models document).result = .ok models)
    (hmodel : model ∈ models) (hf : f ∈ model.fields) :
    model = Model.attachment ∨ IsDepicted document model f := by
  obtain ⟨named, found, writes, hnamed, hfound, rfl⟩ := models_parts h
  rcases List.mem_append.1 hmodel with hmem | hmem
  · obtain ⟨made, hmadeIn, rfl⟩ := Writes.mem_settle.1 hmem
    obtain ⟨before, hbefore, rfl⟩ := Model.mem_fields_mapFree.1 hf
    obtain ⟨⟨k, v⟩, hp, hmade⟩ := (exists_mem_of_forall₂ (namedModels_ok hnamed)).1 made hmadeIn
    obtain ⟨c, schema, rfl, hname, _, hfields⟩ := exists_schema_of_toModel hmade
    have hsame : Writes.Described [] schema schema := Or.inl (List.map_id _).symm
    exact Or.inr (isDepicted_of_described (fun k v hv => .named hp hname hv) hsame hfields
      hbefore).mapFree
  rcases List.mem_cons.1 hmem with rfl | hmem
  · exact Or.inl rfl
  obtain ⟨s, hs, ws, hid, made, later, hmade, rfl⟩ := exists_isMadeFor hfound hmem
  obtain ⟨before, hbefore, rfl⟩ := Model.mem_fields_mapFree.1 hf
  exact Or.inr (isDepicted_of_isMadeFor hs hid hmade hbefore).mapFree

/-- What is within a field shows what is beneath the object that the field depicts. -/
theorem exists_beneath (h : Depicts object f) (hwithin : f.Within g) :
    ∃ inner, Beneath object f inner g ∧ Shows inner g := by
  induction hwithin generalizing object with
  | self f => exact ⟨object, .here object f, h.shows⟩
  | elements hitems _ ih =>
      cases h with
      | flat _ hnone => rw [hnone] at hitems; cases hitems
      | list _ hsome hfound helements =>
          cases hsome.symm.trans hitems
          obtain ⟨inner, hbeneath, hshows⟩ := ih helements
          exact ⟨inner, .elements hitems hfound hbeneath, hshows⟩

theorem IsObjectOf.beneath {inner : Members} (h : IsObjectOf document object)
    (hbeneath : Beneath object f inner g) : IsObjectOf document inner := by
  induction hbeneath with
  | here => exact h
  | elements _ hfound _ ih => exact ih (.elements h hfound)

end Schema

end ApiOutline
