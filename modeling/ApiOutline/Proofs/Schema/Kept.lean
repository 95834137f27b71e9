import ApiOutline.Proofs.Schema.Origin

/-!
# What fields keep

The free values of a field are values of the document: an example, a default,
the choices of an `enum`, or one of these beneath `items` (`Kept`). A field that
is read of an object has no other free values (`kept_of_gives`), so what is
written later changes a model only if it is written into a value that the model
keeps.
-/

namespace ApiOutline.Schema

open Record (Checked)

variable {object schema definition : Members} {f : Field} {model : Model} {models : List Model}
  {operationId v : Value}

/-- Whether the field of an object keeps a value as it stands there. -/
inductive Kept : Members → Value → Prop
  | choice {object : Members} {items : List Value} {v : Value}
      (choices : Record.nullable (Record.listOf Record.anything) (Members.find object "enum") =
        .accepted (some items))
      (isChoice : v ∈ items) : Kept object v
  | sample {object : Members} {v : Value} (isSample : Members.find? object "example" = some v) :
      Kept object v
  | default {object : Members} {v : Value} (isDefault : Members.find? object "default" = some v) :
      Kept object v
  | elements {object inner : Members} {c : Option Nat} {v : Value}
      (isItems : Members.find? object "items" = some (.map c inner)) (kept : Kept inner v) :
      Kept object v

/-- Whether a field of a schema keeps a value. -/
def KeptIn (schema : Members) (v : Value) : Prop :=
  ∃ k property, (k, property) ∈ propertiesOf schema ∧ Kept property.membersOrNil v

/-- Whether a model of a named schema keeps a value. -/
def KeptByNamed (schemas : Members) (v : Value) : Prop :=
  ∃ k c schema, (k, .map c schema) ∈ schemas ∧ KeptIn schema v

/-- Whether a model of an operation keeps a value. -/
inductive KeptBy (definition : Members) (v : Value) : Prop
  | form {c : Option Nat} {schema : Members}
      (hasId : (Members.find definition "operationId").isTruthy = true)
      (isForm : writtenForm definition = some (c, schema)) (kept : KeptIn schema v)
  | query {p object : Members}
      (hasId : (Members.find definition "operationId").isTruthy = true)
      (isQuery : p ∈ queryOf definition) (isObject : parameterProperty p = .ok object)
      (kept : Kept object v)

/-! ## Fields -/

/-- An example or a default is the member itself. -/
theorem find?_of_anything {shaped : Members} {key : String}
    (hshaped : normalize object = .ok shaped)
    (hkey : key ∉ reshaped) (hrequired : key ≠ "required")
    (h : Record.optional shaped key [] none (Record.nullable Record.anything) =
      .accepted (some v)) :
    Members.find? object key = some v := by
  unfold Record.optional Record.spelled at h
  rw [find?_normalize hshaped hkey (Or.inl hrequired)] at h
  cases hfound : Members.find? object key with
  | none =>
      rw [hfound] at h
      cases h
  | some x =>
      rw [hfound] at h
      cases x <;> cases Checked.under_eq_accepted h <;> rfl

theorem kept_of_gives (h : Gives object f) (hfree : f.HasFree v) : Kept object v := by
  induction hfree generalizing object with
  | choice hchoices hv =>
      obtain ⟨shaped, hshaped, hread⟩ := h
      have henum := Record.nullable_of_optional (Field.read_eq_accepted.1 hread).enum
      rw [hchoices, Members.find, find?_normalize hshaped (by decide) (Or.inl (by decide))] at henum
      exact .choice henum hv
  | sample hv =>
      obtain ⟨shaped, hshaped, hread⟩ := h
      have hsample := (Field.read_eq_accepted.1 hread).sample
      rw [hv] at hsample
      exact .sample (find?_of_anything hshaped (by decide) (by decide) hsample)
  | default hv =>
      obtain ⟨shaped, hshaped, hread⟩ := h
      have hdefault := (Field.read_eq_accepted.1 hread).default
      rw [hv] at hdefault
      exact .default (find?_of_anything hshaped (by decide) (by decide) hdefault)
  | elements hitems _ ih =>
      obtain ⟨c, inner, hinner, hgives⟩ := gives_of_items h hitems
      exact .elements hinner (ih hgives)

/-- A draft keeps what its property keeps. -/
theorem Kept.of_draft {required k property : Value} (h : Kept (draft required k property) v) :
    Kept property.membersOrNil v := by
  have hsame : ∀ {key : String}, key ∉ ["name", "required"] →
      Members.find? (draft required k property) key = Members.find? property.membersOrNil key :=
    fun hkey => find?_draft_of_notMem hkey required k property
  cases h with
  | choice hchoices hv =>
      rw [Members.find, hsame (by decide)] at hchoices
      exact .choice hchoices hv
  | sample hv => exact .sample ((hsame (by decide)).symm.trans hv)
  | default hv => exact .default ((hsame (by decide)).symm.trans hv)
  | elements hitems hkept => exact .elements ((hsame (by decide)).symm.trans hitems) hkept

theorem kept_of_fieldsOf {required : Value} {properties : Members} {fields : List Field}
    (h : fieldsOf required properties = .ok fields) (hf : f ∈ fields) (hfree : f.HasFree v) :
    ∃ k property, (k, property) ∈ properties ∧ Kept property.membersOrNil v := by
  obtain ⟨⟨k, property⟩, hp, hfield⟩ := (exists_mem_of_forall₂ (fieldsOf_ok h)).1 f hf
  exact ⟨k, property, hp, (kept_of_gives (fieldOf_eq_ok.1 hfield) hfree).of_draft⟩

theorem keptIn_of_fieldsIn {fields : List Field} (h : fieldsIn schema = .ok fields)
    (hf : f ∈ fields)
    (hfree : f.HasFree v) : KeptIn schema v := by
  obtain ⟨properties, hproperties, hfields⟩ := bind_eq_ok.1 h
  rw [Value.eq_membersOrNil hproperties] at hfields
  exact kept_of_fieldsOf hfields hf hfree

/-! ## Models -/

theorem keptByNamed_of_namedModels {schemas : Members} (h : namedModels schemas = .ok models)
    (hmodel : model ∈ models) (hf : f ∈ model.fields) (hfree : f.HasFree v) :
    KeptByNamed schemas v := by
  obtain ⟨⟨k, schema⟩, hp, hmade⟩ := (exists_mem_of_forall₂ (namedModels_ok h)).1 model hmodel
  obtain ⟨c, schema, rfl, -, -, hfields⟩ := exists_schema_of_toModel hmade
  exact ⟨k, c, schema, hp, keptIn_of_fieldsIn hfields hf hfree⟩

theorem keptBy_of_formModel {writes : Writes}
    (hid : (Members.find definition "operationId").isTruthy = true)
    (h : formModel definition operationId = .ok (some model, writes)) (hf : f ∈ model.fields)
    (hfree : f.HasFree v) : KeptBy definition v := by
  obtain ⟨c, schema, hform, -, hfields⟩ := formModel_some h
  exact .form hid hform (keptIn_of_fieldsIn hfields hf hfree)

theorem keptBy_of_queryModel (hid : (Members.find definition "operationId").isTruthy = true)
    (h : queryModel definition operationId = .ok (some model)) (hf : f ∈ model.fields)
    (hfree : f.HasFree v) : KeptBy definition v := by
  rcases isQueryModel_of_queryModel h with _ | ⟨hproperties, -, hfields⟩
  obtain ⟨k, property, hp, hkept⟩ := kept_of_fieldsOf hfields hf hfree
  rcases mem_parameterProperties hproperties hp with
    hnone | ⟨p, hquery, object, _, hobject, rfl, -⟩
  · cases hnone
  exact .query hid hquery hobject hkept

end ApiOutline.Schema
