import ApiOutline.Proofs.ReadBack
import ApiOutline.Proofs.Schema.Origin

/-!
# The models of a plain document

In a plain document no mapping has a cell, so nothing that is written to one is
seen anywhere (`apply_of_isPlain`). Each property, each query parameter and
each of their `items` is plain, and the field that is read of it takes its
choices, its example and its default from there. A member that is null is read
as none, which is why a field never has null for its example or its default.
-/

namespace ApiOutline

open Record (Checked)
open Value (isPlain_map)

/-! ## Plain values and cells -/

namespace Value

variable {v : Value} {ms : Members}

theorem holdsList_eq_any (cell : Nat) (items : List Value) :
    holdsList cell items = items.any (holds cell) := by
  induction items with
  | nil => rfl
  | cons v rest ih => rw [holdsList, ih, List.any_cons]

theorem holdsMembers_eq_any (cell : Nat) (ms : Members) :
    holdsMembers cell ms = ms.any fun m => m.2.holds cell := by
  induction ms with
  | nil => rfl
  | cons m rest ih =>
      obtain ⟨k, v⟩ := m
      rw [holdsMembers, ih, List.any_cons]

theorem IsPlain.holds (h : v.IsPlain) (cell : Nat) : v.holds cell = false := by
  induction h with
  | list _ ih =>
      rw [Value.holds, holdsList_eq_any, List.any_eq_false]
      exact fun v hv => Bool.eq_false_iff.1 (ih v hv)
  | map _ _ ih =>
      rw [Value.holds, holdsMembers_eq_any, Bool.or_eq_false_iff, List.any_eq_false]
      exact ⟨rfl, fun m hm => Bool.eq_false_iff.1 (ih m hm)⟩
  | _ => rfl

theorem IsPlain.key {c : Option Nat} {m : Value × Value} (h : (Value.map c ms).IsPlain)
    (hm : m ∈ ms) : m.1.IsPlain := by
  obtain ⟨-, hnamed, -⟩ := isPlain_map.1 h
  obtain ⟨s, hs⟩ := Members.eq_str_of_isText (hnamed.keys m hm)
  rw [hs]
  exact .str s

end Value

namespace Schema

variable {document v : Value} {object schema definition : Members} {f : Field} {models : List Model}
  {model : Model}

theorem Writes.apply_of_isPlain (h : v.IsPlain) (ws : Writes) : ws.apply v = v :=
  Writes.apply_of_not_holds fun w _ => h.holds w.1

/-! ## Fields -/

/-- A choice of values is read from a list. -/
theorem list_of_enum {items : List Value} (hplain : v.IsPlain)
    (h : Record.nullable (Record.listOf Record.anything) v = .accepted (some items)) :
    v = .list items := by
  cases hplain with
  | @list elements _ =>
      obtain ⟨_, hread, heq⟩ := Checked.map_eq_accepted h
      rw [Record.values_readBack elements] at hread
      cases hread
      cases heq
      rfl
  | _ => cases h

theorem eq_of_anything {x : Value}
    (h : Record.nullable Record.anything v = .accepted (some x)) : x = v ∧ x ≠ .null := by
  cases v with
  | null => cases h
  | _ =>
      cases h
      exact ⟨rfl, Value.noConfusion⟩

/-- What is read of a plain object is a field with plain values. -/
theorem isPlain_of_gives {object : Members} {f : Field} (h : Gives object f)
    (hplain : (Value.ofMembers object).IsPlain) : f.IsPlain := by
  obtain ⟨shaped, hshaped, hread⟩ := h
  have hparts := Field.read_eq_accepted.1 hread
  have hkept : ∀ {key : String}, key ∉ reshaped → key ≠ "required" →
      (Members.find shaped key).IsPlain := by
    intro key hkey hrequired
    rw [Members.find, find?_normalize hshaped hkey (Or.inl hrequired)]
    exact hplain.find key
  have hfree : ∀ {key : String} {x : Option Value}, (Members.find shaped key).IsPlain →
      Record.optional shaped key [] none (Record.nullable Record.anything) = .accepted x →
      ∀ v, x = some v → v.IsPlain ∧ v ≠ .null := by
    intro key x hfound h v hv
    rw [hv] at h
    obtain ⟨heq, hne⟩ := eq_of_anything (Record.nullable_of_optional h)
    rw [← heq] at hfound
    exact ⟨hfound, hne⟩
  refine .intro (fun items hitems => ?_) (hfree (hkept (by decide) (by decide)) hparts.sample)
    (hfree (hkept (by decide) (by decide)) hparts.default) fun g hg => ?_
  · have henum : (Members.find shaped "enum").IsPlain := hkept (by decide) (by decide)
    have hlist := Record.nullable_of_optional hparts.enum
    rw [hitems] at hlist
    rw [list_of_enum henum hlist] at henum
    exact fun v hv => henum.of_mem_list hv
  · obtain ⟨c, inner, hinner, hgives⟩ := gives_of_items ⟨shaped, hshaped, hread⟩ hg
    have helements := hplain.find? hinner
    rw [(isPlain_map.1 helements).1] at helements
    exact isPlain_of_gives hgives helements
termination_by sizeOf f
decreasing_by exact Field.sizeOf_items_lt hg

theorem isPlain_draft {k : Value} (required : Value) (hk : k.IsPlain) (hv : v.IsPlain) :
    (Value.ofMembers (draft required k v)).IsPlain := by
  have hmark : (requiredMark required k).IsPlain := by
    unfold requiredMark
    split
    · exact .bool _
    · exact .null
  rw [draft_eq]
  exact (hv.membersOrNil.set "name" hk).set "required" hmark

theorem isPlain_of_fieldsOf {required : Value} {properties : Members} {fields : List Field}
    (h : fieldsOf required properties = .ok fields)
    (hplain : ∀ p ∈ properties, p.1.IsPlain ∧ p.2.IsPlain) : ∀ f ∈ fields, f.IsPlain := by
  intro f hf
  obtain ⟨⟨k, v⟩, hp, hfield⟩ := (exists_mem_of_forall₂ (fieldsOf_ok h)).1 f hf
  obtain ⟨hk, hv⟩ := hplain _ hp
  exact isPlain_of_gives (fieldOf_eq_ok.1 hfield) (isPlain_draft required hk hv)

/-- A plain schema gives fields with plain values. -/
theorem isPlain_of_fieldsIn {c : Option Nat} (h : fieldsIn schema = .ok model.fields)
    (hplain : (Value.map c schema).IsPlain) : model.IsPlain := by
  obtain ⟨properties, hproperties, hfields⟩ := bind_eq_ok.1 h
  have hmap : (Value.ofMembers properties).IsPlain := by
    rw [Value.eq_membersOrNil hproperties]
    exact (hplain.find "properties").membersOrNil
  exact isPlain_of_fieldsOf hfields fun p hp => ⟨hmap.key hp, hmap.of_mem hp⟩

/-! ## Models -/

/-- What is written afterwards changes nothing in plain values. -/
theorem isPlain_mapFree (h : model.IsPlain) (ws : Writes) : (model.mapFree ws.apply).IsPlain := by
  rw [Model.mapFree_of_fixed fun f hf v hv => Writes.apply_of_isPlain ((h f hf).free hv) ws]
  exact h

theorem isPlain_attachment : Model.attachment.IsPlain := by
  intro f hf
  simp only [Model.attachment, List.mem_cons, List.not_mem_nil, or_false] at hf
  rcases hf with rfl | rfl | rfl
  · exact Field.isPlain_plain fun v hv => by
      cases hv
      exact ⟨.str _, Value.noConfusion⟩
  · exact Field.isPlain_plain (by simp)
  · exact Field.isPlain_plain (by simp)

theorem isPlain_formMedia {c : Option Nat} (hplain : (Value.map c definition).IsPlain) :
    (formMedia (contentOf definition)).IsPlain := by
  have hcontent : (Value.ofMembers (contentOf definition)).IsPlain :=
    ((hplain.find "requestBody").membersOrNil.find "content").membersOrNil
  unfold formMedia
  simp only []
  split
  · exact hcontent.find _
  · exact hcontent.find _

theorem isPlain_of_mem_queryOf {c : Option Nat} {p : Members}
    (hplain : (Value.map c definition).IsPlain) (hp : p ∈ queryOf definition) :
    (Value.ofMembers p).IsPlain := by
  obtain ⟨items, c', hparameters, hitem⟩ := of_mem_queryOf hp
  have hlist := hplain.find "parameters"
  rw [hparameters] at hlist
  have hmap := hlist.of_mem_list hitem
  rw [(isPlain_map.1 hmap).1] at hmap
  exact hmap

theorem isPlain_parameterProperty {p : Members} (hplain : (Value.ofMembers p).IsPlain)
    (h : parameterProperty p = .ok object) : (Value.ofMembers object).IsPlain := by
  rw [parameterProperty_eq] at h
  split at h
  · cases h
  · cases h
    exact ((hplain.overlay (hplain.find "schema").membersOrNil).erase "in").erase "schema"

/-- What is made for an operation with a plain definition has plain values. -/
theorem isPlain_of_isMadeFor {s : Site} {operationId : Value} (hplain : s.definition.IsPlain)
    (h : IsMadeFor s operationId model) : model.IsPlain := by
  cases h with
  | form hwritten hmade =>
      rw [Writes.apply_of_isPlain hplain] at hwritten
      rw [hwritten] at hplain
      obtain ⟨c, schema, hform, -, hfields⟩ := formModel_some hmade
      have hschema := (isPlain_formMedia hplain).membersOrNil.find "schema"
      rw [(writtenForm_eq_some.1 hform).1] at hschema
      exact isPlain_of_fieldsIn hfields hschema
  | query hwritten hmade =>
      rw [Writes.apply_of_isPlain hplain] at hwritten
      rw [hwritten] at hplain
      rcases isQueryModel_of_queryModel hmade with _ | ⟨hproperties, -, hfields⟩
      refine isPlain_of_fieldsOf hfields fun ⟨k, v⟩ hm => ?_
      rcases mem_parameterProperties hproperties hm with
        hnone | ⟨p, hp, object, _, hobject, rfl, -⟩
      · cases hnone
      rcases (keys_parameterProperties hproperties).2 k (List.mem_map_of_mem hm) with
        hnone | ⟨q, hq, rfl⟩
      · cases hnone
      exact ⟨(isPlain_of_mem_queryOf hplain hq).find "name",
        isPlain_parameterProperty (isPlain_of_mem_queryOf hplain hp) hobject⟩

theorem isPlain_of_mem_models (hplain : document.IsPlain)
    (h : (Schema.models document).result = .ok models) (hmodel : model ∈ models) :
    model.IsPlain := by
  obtain ⟨named, found, writes, hnamed, hfound, rfl⟩ := models_parts h
  rcases List.mem_append.1 hmodel with hmem | hmem
  · obtain ⟨made, hmadeIn, rfl⟩ := Writes.mem_settle.1 hmem
    have hschemas : (Value.ofMembers (schemasIn document)).IsPlain :=
      ((hplain.membersOrNil.find "components").membersOrNil.find "schemas").membersOrNil
    obtain ⟨⟨k, v⟩, hp, hmade⟩ := (exists_mem_of_forall₂ (namedModels_ok hnamed)).1 made hmadeIn
    obtain ⟨c, schema, rfl, -, -, hfields⟩ := exists_schema_of_toModel hmade
    exact isPlain_mapFree (isPlain_of_fieldsIn hfields (hschemas.of_mem hp)) writes
  rcases List.mem_cons.1 hmem with rfl | hmem
  · exact isPlain_attachment
  obtain ⟨s, hs, ws, -, made, later, hmade, rfl⟩ := exists_isMadeFor hfound hmem
  obtain ⟨c, item, _, _, hitem, hdefinition, -⟩ := of_mem_sites hs
  have hpaths :
      (Value.ofMembers (Members.find document.membersOrNil "paths").membersOrNil).IsPlain :=
    (hplain.membersOrNil.find "paths").membersOrNil
  have hsite := (hpaths.of_mem hitem).of_mem hdefinition
  exact isPlain_mapFree (isPlain_of_isMadeFor hsite hmade) later

end Schema

end ApiOutline
