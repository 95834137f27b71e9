import Mathlib.Data.List.Forall2
import ApiOutline.Proofs.Field
import ApiOutline.Schema.Model

/-!
# The fields of a schema

A model has one field for each property of its schema, in their order. Bringing
a property into shape leaves its name and its mark alone, so the field has the
property's key for its name and is required as the schema's list says
(`fieldOf_ok`). Of a schema's members only two have a say in the fields
(`fieldsIn`); its description and the model's name have none.
-/

namespace ApiOutline

open Record (Checked)

namespace Schema

variable {ms ms' : Members} {key : String}

/-! ## What stays as it is in shape -/

theorem find?_shortenRef (h : shortenRef ms = .ok ms') (hkey : key ≠ "$ref") :
    Members.find? ms' key = Members.find? ms key := by
  unfold shortenRef at h
  split at h
  · cases h; rfl
  · obtain ⟨name, _, hset⟩ := bind_eq_ok.1 h
    cases hset
    exact Members.find?_set_of_ne hkey.symm ms _

theorem find?_replaceBinary (hkey : key ∉ ["$ref", "type", "format"]) (ms : Members) :
    Members.find? (replaceBinary ms) key = Members.find? ms key := by
  simp only [List.mem_cons, List.not_mem_nil, or_false, not_or] at hkey
  obtain ⟨href, htype, hformat⟩ := hkey
  unfold replaceBinary
  split
  · rw [Members.find?_erase_of_ne (Ne.symm hformat), Members.find?_erase_of_ne (Ne.symm htype),
      Members.find?_set_of_ne (Ne.symm href)]
  · rfl

theorem find?_chooseType (hkey : key ≠ "type") (ms : Members) :
    Members.find? (chooseType ms) key = Members.find? ms key := by
  unfold chooseType
  split
  · exact Members.find?_set_of_ne hkey.symm ms _
  · rfl

/-- A truth value is not left out. -/
theorem find?_dropRequired
    (h : key ≠ "required" ∨ ∃ b, Members.find? ms "required" = some (.bool b)) :
    Members.find? (dropRequired ms) key = Members.find? ms key := by
  unfold dropRequired
  split
  · rfl
  · rfl
  · next v hv hfind =>
      rcases h with hkey | ⟨b, hb⟩
      · exact Members.find?_erase_of_ne hkey.symm ms
      · exact absurd (Option.some.inj (hfind.symm.trans hb)) (hv b)

theorem find?_shape (h : shape ms = .ok ms') (hkey : key ∉ ["$ref", "type", "format"])
    (hmark : key ≠ "required" ∨ ∃ b, Members.find? ms "required" = some (.bool b)) :
    Members.find? ms' key = Members.find? ms key := by
  obtain ⟨short, hshort, hend⟩ := bind_eq_ok.1 h
  cases hend
  have hsame : ∀ {name : String}, name ∉ ["$ref", "type", "format"] →
      Members.find? (chooseType (replaceBinary short)) name = Members.find? ms name := by
    intro name hname
    have href : name ≠ "$ref" := fun h => hname (by simp [h])
    have htype : name ≠ "type" := fun h => hname (by simp [h])
    rw [find?_chooseType htype, find?_replaceBinary hname, find?_shortenRef hshort href]
  rw [find?_dropRequired, hsame hkey]
  rw [hsame (by decide)]
  exact hmark

/-- The members that are changed when a property is brought into shape. -/
def reshaped : List String := ["$ref", "type", "format", "items"]

/-- What is in shape has the other members of the property, and its mark if it has one. -/
theorem find?_normalize (h : normalize ms = .ok ms') (hkey : key ∉ reshaped)
    (hmark : key ≠ "required" ∨ ∃ b, Members.find? ms "required" = some (.bool b)) :
    Members.find? ms' key = Members.find? ms key := by
  have hshape : key ∉ ["$ref", "type", "format"] := fun h => hkey (by simp_all [reshaped])
  have hitems : "items" ≠ key := fun h => hkey (by simp [reshaped, ← h])
  rw [normalize] at h
  obtain ⟨shaped, hshaped, h⟩ := bind_eq_ok.1 h
  obtain ⟨items, _, h⟩ := bind_eq_ok.1 h
  rw [← find?_shape hshaped hshape hmark]
  cases items with
  | none => cases h; rfl
  | some items =>
      cases h
      exact Members.find?_set_of_ne hitems shaped _

/-! ## Fields -/

theorem draft_eq (required name property : Value) : draft required name property =
    Members.set (Members.set property.membersOrNil "name" name) "required"
      (requiredMark required name) := by
  cases property <;> rfl

/-- Its name and its mark are all that a draft has not from its property. -/
theorem find?_draft_of_notMem (hkey : key ∉ ["name", "required"])
    (required name property : Value) :
    Members.find? (draft required name property) key =
      Members.find? property.membersOrNil key := by
  simp only [List.mem_cons, List.not_mem_nil, or_false, not_or] at hkey
  rw [draft_eq, Members.find?_set_of_ne (Ne.symm hkey.2), Members.find?_set_of_ne (Ne.symm hkey.1)]

theorem find?_draft_name (required name property : Value) :
    Members.find? (draft required name property) "name" = some name := by
  rw [draft_eq, Members.find?_set_of_ne (by decide), Members.find?_set_self]

theorem find?_draft_required (required name property : Value) :
    Members.find? (draft required name property) "required" =
      some (requiredMark required name) := by
  rw [draft_eq, Members.find?_set_self]

/-- A field has the key of its property for its name, and the mark of that key. -/
theorem fieldOf_ok {required name property : Value} {f : Field}
    (h : fieldOf required (name, property) = .ok f) :
    Record.nullable Record.text name = .accepted f.name ∧
    ∀ b, requiredMark required name = .bool b → f.required = some b := by
  obtain ⟨members, hmembers, h⟩ := bind_eq_ok.1 h
  have hread := Field.read_eq_accepted.1 (checked_eq_ok h)
  have hname := hread.name
  have hrequired := hread.required
  have hkept : Members.find? members "name" = some name := by
    rw [find?_normalize hmembers (by decide) (Or.inl (by decide)), find?_draft_name]
  rw [Record.optional_of_find? hkept] at hname
  refine ⟨Checked.under_eq_accepted hname, fun b hb => ?_⟩
  have hmark : Members.find? (draft required name property) "required" = some (.bool b) := by
    rw [find?_draft_required, hb]
  have hmarked : Members.find? members "required" = some (.bool b) := by
    rw [find?_normalize hmembers (by decide) (Or.inr ⟨b, hmark⟩), hmark]
  rw [Record.optional_of_find? hmarked] at hrequired
  exact (Checked.accepted.inj (Checked.under_eq_accepted hrequired)).symm

theorem fieldsOf_ok {required : Value} {properties : Members} {fields : List Field}
    (h : fieldsOf required properties = .ok fields) :
    List.Forall₂ (fun p f => fieldOf required p = .ok f) properties fields := by
  induction properties generalizing fields with
  | nil => cases h; exact .nil
  | cons p rest ih =>
      obtain ⟨field, hfield, h⟩ := bind_eq_ok.1 h
      obtain ⟨others, hothers, h⟩ := bind_eq_ok.1 h
      cases h
      exact .cons hfield (ih hothers)

theorem exists_mem_of_forall₂ {α β : Type} {R : α → β → Prop} {as : List α} {bs : List β}
    (h : List.Forall₂ R as bs) : (∀ b ∈ bs, ∃ a ∈ as, R a b) ∧ ∀ a ∈ as, ∃ b ∈ bs, R a b := by
  induction h with
  | nil => simp
  | @cons a b as bs hab _ ih =>
      constructor
      · intro b' hb'
        rcases List.mem_cons.1 hb' with rfl | hb'
        · exact ⟨a, List.mem_cons_self, hab⟩
        · obtain ⟨a', ha', hr⟩ := ih.1 b' hb'
          exact ⟨a', List.mem_cons_of_mem _ ha', hr⟩
      · intro a' ha'
        rcases List.mem_cons.1 ha' with rfl | ha'
        · exact ⟨b, List.mem_cons_self, hab⟩
        · obtain ⟨b', hb', hr⟩ := ih.2 a' ha'
          exact ⟨b', List.mem_cons_of_mem _ hb', hr⟩

/-! ## Models -/

/-- The fields that a schema has, whatever it is called. -/
def fieldsIn (schema : Members) : Except Failure (List Field) := do
  let properties ← (Members.find schema "properties").membersIfAny
  fieldsOf (Members.find schema "required") properties

/-- A model is made of a mapping. It is called as it is said to be, and its description is that of
the mapping. -/
theorem exists_schema_of_toModel {name schema : Value} {model : Model}
    (hmodel : toModel name schema = .ok model) :
    ∃ cell ms, schema = .map cell ms ∧ Record.text name = .accepted model.name ∧
      Record.nullable Record.text (Members.find ms "description") = .accepted model.description ∧
      fieldsIn ms = .ok model.fields := by
  obtain ⟨ms, hms, h⟩ := bind_eq_ok.1 hmodel
  obtain ⟨cell, rfl⟩ := Value.members_eq_ok hms
  obtain ⟨properties, hproperties, h⟩ := bind_eq_ok.1 h
  obtain ⟨fields, hfields, h⟩ := bind_eq_ok.1 h
  obtain ⟨_, _, h, hdescription, hend⟩ := Checked.both_eq_accepted (checked_eq_ok h)
  obtain ⟨_, hname, h⟩ := Checked.map_eq_accepted h
  subst h hend
  exact ⟨cell, ms, rfl, Checked.under_eq_accepted hname, Checked.under_eq_accepted hdescription,
    bind_eq_ok.2 ⟨properties, hproperties, hfields⟩⟩

/-- A model has the fields of its schema. -/
theorem toModel_ok {name : String} {cell : Option Nat} {schema : Members} {model : Model}
    (h : toModel (.str name) (.map cell schema) = .ok model) :
    model.name = name ∧ fieldsIn schema = .ok model.fields := by
  obtain ⟨_, _, hmap, hname, _, hfields⟩ := exists_schema_of_toModel h
  cases hmap
  exact ⟨(Checked.accepted.inj hname).symm, hfields⟩

theorem toModel_of_named {name : Value} {title : String} {cell : Option Nat} {schema : Members}
    {fields : List Field} {description : Option String} (hname : Record.text name = .accepted title)
    (h : fieldsIn schema = .ok fields)
    (hdescription : Record.nullable Record.text (Members.find schema "description") =
      .accepted description) :
    toModel name (.map cell schema) = .ok ⟨title, description, fields⟩ := by
  obtain ⟨properties, hproperties, hfields⟩ := bind_eq_ok.1 h
  refine bind_eq_ok.2 ⟨schema, rfl, bind_eq_ok.2 ⟨properties, hproperties,
    bind_eq_ok.2 ⟨fields, hfields, ?_⟩⟩⟩
  rw [hname, hdescription]
  rfl

/-- A schema with fields is a model under any name, if its description is a text or null. -/
theorem toModel_eq {cell : Option Nat} {schema : Members} {fields : List Field}
    {description : Option String} (h : fieldsIn schema = .ok fields)
    (hdescription : Record.nullable Record.text (Members.find schema "description") =
      .accepted description) (name : String) :
    toModel (.str name) (.map cell schema) = .ok ⟨name, description, fields⟩ :=
  toModel_of_named rfl h hdescription

theorem fieldsIn_set {schema : Members} (v : Value) (hproperties : key ≠ "properties")
    (hrequired : key ≠ "required") : fieldsIn (Members.set schema key v) = fieldsIn schema := by
  rw [fieldsIn, fieldsIn, Members.find_set_of_ne hproperties, Members.find_set_of_ne hrequired]

end Schema

end ApiOutline
