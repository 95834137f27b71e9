import ApiOutline.Proofs.Schema.Origin
import Mathlib.Data.List.Permutation

/-!
# References of fields

The reference of a field is the name of a model if every reference of the
document points to a named schema. The objects of a document are gone through
once (`refersWithin_of_isObjectOf`): a query parameter is put together of two
objects, and its members are members of one of them. A field then shows its
object, so its reference is what the object's points at, or the attachments.
-/

namespace ApiOutline

namespace Naming

/-- A reference to a named schema. -/
def schemaRef (name : String) : String := "#/components/schemas/" ++ name

theorem takeWhile_append_slash {cs rest : List Char} (h : '/' ∉ cs) :
    (cs ++ '/' :: rest).takeWhile (· != '/') = cs := by
  induction cs with
  | nil => rfl
  | cons c cs ih =>
      obtain ⟨hc, hcs⟩ := not_or.1 (mt List.mem_cons.2 h)
      rw [List.cons_append, List.takeWhile_cons, if_pos (bne_iff_ne.2 (Ne.symm hc)), ih hcs]

/-- Of a reference only what follows the last slash is kept. -/
theorem refName_append {base name : String} {cs : List Char}
    (hbase : base.toList.reverse = '/' :: cs) (h : '/' ∉ name.toList) :
    refName (base ++ name) = name := by
  have hslash : '/' ∉ name.toList.reverse := mt List.mem_reverse.1 h
  rw [refName, String.toList_append, List.reverse_append, hbase, takeWhile_append_slash hslash,
    List.reverse_reverse, String.ofList_toList]

theorem refName_schemaRef {name : String} (h : '/' ∉ name.toList) :
    refName (schemaRef name) = name := by
  have hbase : "#/components/schemas/".toList.reverse =
      '/' :: "#/components/schemas".toList.reverse := by decide +kernel
  exact refName_append hbase h

end Naming

namespace Schema

variable {document : Value} {ms : List Model} {model : Model} {object : Members} {f g : Field}
  {names : String → Prop} {name : String}

/-- The names of a document's schemas. -/
def NamesSchema (document : Value) (name : String) : Prop :=
  ∃ schema, (.str name, schema) ∈ schemasIn document

/-- Whether an object, and what stands under its `items`, refers to names without a slash only. -/
inductive RefersWithin (names : String → Prop) : Members → Prop
  | intro {object : Members}
      (refs : ∀ v, (.str "$ref", v) ∈ object →
        ∃ name, names name ∧ '/' ∉ name.toList ∧ v = .str (Naming.schemaRef name))
      (noPlain : ∀ v, (.str "ref", v) ∉ object)
      (elements : ∀ c inner, (.str "items", .map c inner) ∈ object → RefersWithin names inner) :
      RefersWithin names object

/-- Whether all properties, query parameters and schemas of these refer to named schemas. -/
structure RefersToSchemas (document : Value) : Prop where
  named : ∀ k c schema, (k, .map c schema) ∈ schemasIn document →
    ∀ key v, (key, v) ∈ propertiesOf schema → RefersWithin (NamesSchema document) v.membersOrNil
  form : ∀ s ∈ sitesIn document, ∀ c schema, writtenForm s.members = some (c, schema) →
    ∀ key v, (key, v) ∈ propertiesOf schema → RefersWithin (NamesSchema document) v.membersOrNil
  query : ∀ s ∈ sitesIn document, ∀ p ∈ queryOf s.members,
    RefersWithin (NamesSchema document) p ∧
      RefersWithin (NamesSchema document) (Members.find p "schema").membersOrNil

theorem RefersWithin.refs (h : RefersWithin names object) {v : Value}
    (hv : (.str "$ref", v) ∈ object) :
    ∃ name, names name ∧ '/' ∉ name.toList ∧ v = .str (Naming.schemaRef name) := by
  cases h with
  | intro hrefs => exact hrefs v hv

theorem RefersWithin.noPlain (h : RefersWithin names object) :
    Members.find? object "ref" = none := by
  cases h with
  | intro _ hnone =>
      cases hfind : Members.find? object "ref" with
      | none => rfl
      | some v => exact absurd (Members.mem_of_find? hfind) (hnone v)

theorem RefersWithin.elements (h : RefersWithin names object) {c : Option Nat} {inner : Members}
    (hinner : (.str "items", .map c inner) ∈ object) : RefersWithin names inner := by
  cases h with
  | intro _ _ helements => exact helements c inner hinner

/-- An object refers as others do if its members are members of these. -/
theorem RefersWithin.of_mem {base upper : Members} (hbase : RefersWithin names base)
    (hupper : RefersWithin names upper)
    (hmem : ∀ key v, (.str key, v) ∈ object → (.str key, v) ∈ base ∨ (.str key, v) ∈ upper) :
    RefersWithin names object := by
  refine .intro (fun v hv => ?_) (fun v hv => ?_) (fun c inner hinner => ?_)
  · exact (hmem _ v hv).elim hbase.refs hupper.refs
  · cases hbase with
    | intro _ hnoBase =>
        cases hupper with
        | intro _ hnoUpper => exact (hmem _ v hv).elim (hnoBase v) (hnoUpper v)
  · exact (hmem _ _ hinner).elim hbase.elements hupper.elements

theorem refersWithin_nil : RefersWithin names [] := by
  refine .intro (fun v hv => ?_) (fun v hv => ?_) (fun c inner hinner => ?_)
  · cases hv
  · cases hv
  · cases hinner

theorem refersWithin_parameterProperty {p : Members} (hp : RefersWithin names p)
    (hschema : RefersWithin names (Members.find p "schema").membersOrNil)
    (h : parameterProperty p = .ok object) : RefersWithin names object := by
  rw [parameterProperty_eq] at h
  split at h
  · cases h
  · cases h
    refine hp.of_mem hschema fun key v hv => ?_
    exact Members.mem_overlay (List.mem_of_mem_filter (List.mem_of_mem_filter hv))

theorem refersWithin_of_isObjectOf (h : RefersToSchemas document)
    (hobject : IsObjectOf document object) : RefersWithin (NamesSchema document) object := by
  induction hobject with
  | property hproperty =>
      cases hproperty with
      | named isNamed _ isProperty => exact h.named _ _ _ isNamed _ _ isProperty
      | form isSite _ isForm isProperty => exact h.form _ isSite _ _ isForm _ _ isProperty
      | query isSite _ isQuery _ _ isObject =>
          obtain ⟨hp, hschema⟩ := h.query _ isSite _ isQuery
          exact refersWithin_parameterProperty hp hschema isObject
      | description => exact refersWithin_nil
  | elements _ isItems ih => exact ih.elements (Members.mem_of_find? isItems)

/-- The reference of a field is a name that its object refers to, or the attachments. -/
theorem ref_of_refersWithin (hshows : Shows object f) (h : RefersWithin names object)
    (hname : f.ref = some name) : name = attachmentName ∨ names name ∧ '/' ∉ name.toList := by
  cases hbinary : isBinary object with
  | true =>
      rw [(hshows.binary hbinary).1] at hname
      exact Or.inl (Option.some.inj hname).symm
  | false =>
      cases href : Members.find? object "$ref" with
      | none =>
          rw [hshows.noRef hbinary href h.noPlain] at hname
          cases hname
      | some v =>
          obtain ⟨ref, hv, hkept⟩ := hshows.ref hbinary v href
          obtain ⟨target, htarget, hslash, hwritten⟩ := h.refs (Members.mem_of_find? href)
          cases hv.symm.trans hwritten
          rw [hkept, Naming.refName_schemaRef hslash] at hname
          cases hname
          exact Or.inr ⟨htarget, hslash⟩

theorem attachment_mem (h : (models document).result = .ok ms) : Model.attachment ∈ ms := by
  obtain ⟨named, found, writes, -, -, rfl⟩ := models_parts h
  exact List.mem_append_right _ List.mem_cons_self

theorem exists_model_of_namesSchema (h : (models document).result = .ok ms)
    (hname : NamesSchema document name) : ∃ model ∈ ms, model.name = name := by
  obtain ⟨schema, hschema⟩ := hname
  obtain ⟨named, found, writes, hnamed, -, rfl⟩ := models_parts h
  obtain ⟨model, hmodel, hmade⟩ :=
    (exists_mem_of_forall₂ (namedModels_ok hnamed)).2 _ hschema
  obtain ⟨_, _, _, htext, _, _⟩ := exists_schema_of_toModel hmade
  exact ⟨model.mapFree writes.apply,
    List.mem_append_left _ (Writes.mem_settle.2 ⟨model, hmodel, rfl⟩),
    (Record.Checked.accepted.inj htext).symm⟩

/-- Every reference of a field, at every depth, is the name of a model and has no slash. -/
theorem field_references_resolve (h : (models document).result = .ok ms)
    (hrefers : RefersToSchemas document) (hmodel : model ∈ ms) (hf : f ∈ model.fields)
    (hwithin : f.Within g) :
    g.ref = none ∨ ∃ name, g.ref = some name ∧ (∃ target ∈ ms, target.name = name) ∧
      '/' ∉ name.toList := by
  have hresolves : ∀ name, name = attachmentName ∨ NamesSchema document name ∧ '/' ∉ name.toList →
      (∃ target ∈ ms, target.name = name) ∧ '/' ∉ name.toList := by
    rintro name (rfl | ⟨hname, hslash⟩)
    · exact ⟨⟨Model.attachment, attachment_mem h, rfl⟩, by decide⟩
    · exact ⟨exists_model_of_namesSchema h hname, hslash⟩
  cases href : g.ref with
  | none => exact Or.inl rfl
  | some name =>
      refine Or.inr ⟨name, rfl, hresolves name ?_⟩
      rcases isDepicted_of_mem h hmodel hf with rfl | ⟨key, object, hproperty, -, hdepicts⟩
      · have hplain : ∀ f ∈ Model.attachment.fields, f.ref = none := by decide +kernel
        rw [hwithin.eq_of_mem_attachment hf, hplain f hf] at href
        cases href
      · obtain ⟨inner, hbeneath, hshows⟩ := exists_beneath hdepicts hwithin
        have hinner := (IsObjectOf.property hproperty).beneath hbeneath
        exact ref_of_refersWithin hshows (refersWithin_of_isObjectOf hrefers hinner) href

/-! ## A list of labels that can be asked for -/

def labelRef : Members := [(.str "$ref", .str "#/components/schemas/Label")]

def labelsObject : Members := [(.str "type", .str "array"), (.str "items", .ofMembers labelRef)]

def labelParameter : Members :=
  [(.str "name", .str "label"), (.str "in", .str "query"), (.str "schema", .ofMembers labelRef)]

def ticketSchemas : Members :=
  [(.str "Label", .ofMembers []),
   (.str "Ticket", .ofMembers [(.str "properties", .ofMembers
      [(.str "labels", .ofMembers labelsObject)])])]

def ticketDefinition : Members :=
  [(.str "operationId", .str "listTickets"), (.str "parameters", .list [.ofMembers labelParameter])]

def ticketDocument : Value := .ofMembers
  [(.str "components", .ofMembers [(.str "schemas", .ofMembers ticketSchemas)]),
   (.str "paths", .ofMembers [(.str "/tickets", .ofMembers
      [(.str "get", .ofMembers ticketDefinition)])])]

def labelElement : Field :=
  ⟨none, none, some "Label", none, none, none, none, none, none, none, none, none⟩

def labelsField : Field :=
  ⟨some "labels", some "array", none, none, none, none, none, some labelElement, none, none, none,
    none⟩

def labelField : Field :=
  ⟨some "label", none, some "Label", none, none, none, none, none, none, none, none, some false⟩

def ticketModels : List Model :=
  [⟨"Label", none, []⟩, ⟨"Ticket", none, [labelsField]⟩, .attachment,
   ⟨"ListTicketsParameters", some "Query parameters for operation listTickets", [labelField]⟩]

theorem namedModels_ticket :
    namedModels ticketSchemas = .ok [⟨"Label", none, []⟩, ⟨"Ticket", none, [labelsField]⟩] := by
  cbv

theorem queryModel_ticket :
    queryModel ticketDefinition (.str "listTickets") =
      .ok (some (bundleModel "listTickets" [labelField])) := by
  have hproperties : parameterProperties (queryParameters [labelParameter]) [] =
      .ok [(.str "label", .ofMembers ((.str "name", .str "label") :: labelRef))] := rfl
  have hfields : fieldsOf (.list (requiredNames (queryParameters [labelParameter])))
      [(.str "label", .ofMembers ((.str "name", .str "label") :: labelRef))] =
        .ok [labelField] := by
    show fieldsOf (.list []) _ = _
    cbv
  exact queryModel_eq rfl (List.cons_ne_nil _ _) hproperties hfields

theorem models_ticket : (models ticketDocument).result = .ok ticketModels := by
  have hmodels : modelsOf (.ofMembers ticketDefinition) (.str "listTickets") =
      .ok ([bundleModel "listTickets" [labelField]], []) :=
    bind_eq_ok.2 ⟨_, rfl, bind_eq_ok.2 ⟨(none, []), rfl, bind_eq_ok.2 ⟨_, rfl,
      bind_eq_ok.2 ⟨_, queryModel_ticket, rfl⟩⟩⟩⟩
  have hsites : sitesIn ticketDocument = [⟨.str "/tickets", "get", .ofMembers ticketDefinition⟩] :=
    rfl
  exact result_models_single rfl namedModels_ticket rfl hsites rfl rfl hmodels

theorem refersToSchemas_ticket : RefersToSchemas ticketDocument := by
  have hnames : NamesSchema ticketDocument "Label" := ⟨_, List.mem_cons_self⟩
  have hlabel : RefersWithin (NamesSchema ticketDocument) labelRef := by
    refine .intro (fun v hv => ?_) (by simp [labelRef]) (by simp [labelRef])
    cases List.mem_singleton.1 hv
    exact ⟨"Label", hnames, by decide, congrArg Value.str (by decide +kernel)⟩
  have hlabels : RefersWithin (NamesSchema ticketDocument) labelsObject := by
    refine .intro (by simp [labelsObject]) (by simp [labelsObject]) fun c inner hinner => ?_
    have hinner : c = none ∧ inner = labelRef := by simpa [labelsObject] using hinner
    rw [hinner.2]
    exact hlabel
  have hparameter : RefersWithin (NamesSchema ticketDocument) labelParameter :=
    .intro (by simp [labelParameter]) (by simp [labelParameter]) (by simp [labelParameter])
  refine ⟨fun k c schema hschema key v hv => ?_, fun s hs c schema hform => ?_, fun s hs p hp => ?_⟩
  · rcases List.mem_cons.1 hschema with heq | hschema
    · cases heq
      cases hv
    · cases List.mem_singleton.1 hschema
      cases List.mem_singleton.1 hv
      exact hlabels
  · cases List.mem_singleton.1 hs
    cases hform
  · cases List.mem_singleton.1 hs
    cases List.mem_singleton.1 hp
    exact ⟨hparameter, hlabel⟩

theorem field_references_resolve_of_tickets :
    (models ticketDocument).result = .ok ticketModels ∧ RefersToSchemas ticketDocument ∧
    labelsField.Within labelElement ∧ ∃ target ∈ ticketModels, target.name = "Label" := by
  have hwithin : labelsField.Within labelElement := .elements rfl (.self _)
  refine ⟨models_ticket, refersToSchemas_ticket, hwithin, ?_⟩
  rcases field_references_resolve models_ticket refersToSchemas_ticket
      (List.mem_cons_of_mem _ List.mem_cons_self) List.mem_cons_self hwithin with
    hnone | ⟨name, hname, htarget, -⟩
  · cases hnone
  · cases hname
    exact htarget

end Schema

end ApiOutline
