import ApiOutline.Proofs.Schema.Extract
import ApiOutline.Proofs.Schema.Property
import ApiOutline.Proofs.Value.Unshared

/-!
# Models do not depend on sharing

As long as nothing is written, the models of a document are made from what the
document says and not from where it says it. Every step from a property to a
field, and from a definition to its models, gives the same for the document in
which nothing is shared, failures included. Only the free values of a field
(its example, its default and its choices) are kept as they are, so they have
to forget their places too (`Field.unshared`).
-/

namespace ApiOutline

open Record (Checked)
open Value (unsharedMembers)

/-! ## Fields and models -/

namespace Field

/-- The field whose free values share nothing. -/
def unshared (f : Field) : Field := f.mapFree Value.unshared

/-- A member that holds no value of its own is read as before. -/
theorem alike_scalar {α : Type} {read : Value → Checked α} (ms : Members) (name : String)
    (others : List String) (h : ∀ v, read v.unshared = read v) :
    (Record.optional ms name others none (Record.nullable read)).Alike (fun x y => y = x)
      (Record.optional (unsharedMembers ms) name others none (Record.nullable read)) :=
  .of_eq (Record.optional_unshared fun v => Record.nullable_unshared v h)

/-- A value that is kept as it is has to forget its places. -/
theorem alike_free (ms : Members) (name : String) :
    (Record.optional ms name [] none (Record.nullable Record.anything)).Alike
      (fun x y => y = x.map Value.unshared)
      (Record.optional (unsharedMembers ms) name [] none (Record.nullable Record.anything)) :=
  Record.alike_optional fun v => Record.alike_nullable v (Record.alike_anything v)

theorem alike_enum (ms : Members) :
    (Record.optional ms "enum" [] none (Record.nullable (Record.listOf Record.anything))).Alike
      (fun x y => y = x.map (List.map Value.unshared))
      (Record.optional (unsharedMembers ms) "enum" [] none
        (Record.nullable (Record.listOf Record.anything))) :=
  Record.alike_optional fun v =>
    Record.alike_nullable v (Record.alike_listOf v Record.alike_anything)

mutual

theorem alike_read : ∀ v : Value, (read v).Alike (fun f g => g = f.unshared) (read v.unshared)
  | .map _ ms => by
      rw [Value.unshared_map, read, read]
      refine .seq (.seq (.seq (.seq (.seq (.seq (.seq (.seq (.seq (.seq (.seq (.map
        (alike_scalar ms "name" [] Record.text_unshared) ?_)
        (alike_scalar ms "type" [] Record.text_unshared))
        (alike_scalar ms "$ref" ["ref"] Record.text_unshared))
        (alike_scalar ms "description" [] Record.text_unshared))
        (alike_enum ms))
        (alike_free ms "example"))
        (alike_scalar ms "format" [] Record.text_unshared))
        ((alike_readItems ms).under (.member "items")))
        (alike_free ms "default"))
        (alike_scalar ms "minimum" [] Record.number_unshared))
        (alike_scalar ms "maximum" [] Record.number_unshared))
        (alike_scalar ms "required" [] Record.truth_unshared)
      rintro _ _ rfl _ _ rfl _ _ rfl _ _ rfl _ _ rfl _ _ rfl _ _ rfl _ _ rfl _ _ rfl _ _ rfl _ _ rfl
        _ _ rfl
      rfl
  | .list _ | .set _ => .refused _
  | .null | .bool _ | .int _ | .float _ | .str _ | .bytes _ | .date _ | .moment _ => .refused _

theorem alike_readItems : ∀ ms : List (Value × Value),
    (readItems ms).Alike (fun f g => g = mapFreeItems Value.unshared f)
      (readItems (unsharedMembers ms))
  | [] => .accepted rfl
  | (k, v) :: rest => by
      unfold unsharedMembers readItems
      rw [Value.sameKey_unshared_left]
      split
      · cases v with
        | map c ms =>
            refine (alike_read (.map c ms)).map fun f g hfg => ?_
            rw [hfg]
            rfl
        | null => exact .accepted rfl
        | _ => exact .refused _
      · exact alike_readItems rest

end

end Field

/-- The model whose fields share nothing. -/
def Model.unshared (m : Model) : Model := m.mapFree Value.unshared

namespace Schema

variable (ms : Members)

/-! ## Properties -/

theorem refNameOf_unshared (v : Value) : Naming.refNameOf v.unshared = Naming.refNameOf v := by
  cases v <;> rfl

theorem shortenRef_unshared :
    shortenRef (unsharedMembers ms) = (shortenRef ms).map unsharedMembers := by
  unfold shortenRef
  rw [Members.find?_unshared]
  cases Members.find? ms "$ref" with
  | none => rfl
  | some ref =>
      simp only [Option.map_some, refNameOf_unshared]
      cases Naming.refNameOf ref with
      | error e => rfl
      | ok name => exact congrArg Except.ok (Members.set_unshared ms "$ref" (.str name))

theorem isBinary_unshared : isBinary (unsharedMembers ms) = isBinary ms := by
  simp only [isBinary, Members.find_unshared, Value.isStr_unshared]

theorem replaceBinary_unshared :
    replaceBinary (unsharedMembers ms) = unsharedMembers (replaceBinary ms) := by
  have hset := Members.set_unshared ms "$ref" (.str attachmentName)
  rw [Value.unshared_str] at hset
  unfold replaceBinary
  rw [isBinary_unshared, hset, Members.erase_unshared, Members.erase_unshared]
  split <;> rfl

theorem keptType_unshared (v : Value) : keptType v.unshared = (keptType v).unshared := by
  cases v with
  | list types =>
      rw [Value.unshared_list, keptType, keptType, List.find?_map]
      simp only [Function.comp_def, Value.isStr_unshared]
      cases types.find? fun t => !t.isStr "null" <;> rfl
  | _ => rfl

/-- Only a list of types is written to. -/
theorem chooseType_eq : chooseType ms =
    match Members.find ms "type" with
    | .list types => Members.set ms "type" (keptType (.list types))
    | _ => ms := rfl

theorem chooseType_unshared :
    chooseType (unsharedMembers ms) = unsharedMembers (chooseType ms) := by
  rw [chooseType_eq, chooseType_eq, Members.find_unshared]
  cases Members.find ms "type" with
  | list types =>
      have hset := Members.set_unshared ms "type" (keptType (.list types))
      rw [← keptType_unshared] at hset
      exact hset
  | _ => rfl

theorem dropRequired_unshared :
    dropRequired (unsharedMembers ms) = unsharedMembers (dropRequired ms) := by
  unfold dropRequired
  rw [Members.find?_unshared]
  cases Members.find? ms "required" with
  | none => rfl
  | some v =>
      cases v with
      | bool b => rfl
      | _ => exact Members.erase_unshared ms "required"

theorem shape_unshared : shape (unsharedMembers ms) = (shape ms).map unsharedMembers := by
  unfold shape
  rw [shortenRef_unshared]
  cases shortenRef ms with
  | error e => rfl
  | ok short =>
      refine congrArg Except.ok ?_
      rw [replaceBinary_unshared, chooseType_unshared, dropRequired_unshared]

mutual

theorem elementsOf_unshared : ∀ ms : List (Value × Value),
    elementsOf (unsharedMembers ms) = (elementsOf ms).map (Option.map Value.unshared)
  | [] => by
      rw [unsharedMembers, elementsOf]
      rfl
  | (k, v) :: rest => by
      unfold unsharedMembers elementsOf
      rw [Value.sameKey_unshared_left]
      split
      · cases v with
        | map c inner =>
            simp only [Value.unshared_map, normalize_unshared inner]
            cases normalize inner <;> rfl
        | _ => rfl
      · exact elementsOf_unshared rest

theorem normalize_unshared : ∀ ms : List (Value × Value),
    normalize (unsharedMembers ms) = (normalize ms).map unsharedMembers := by
  intro ms
  rw [normalize, normalize, shape_unshared, elementsOf_unshared ms]
  cases shape ms with
  | error e => rfl
  | ok shaped =>
      cases elementsOf ms with
      | error e => rfl
      | ok items =>
          cases items with
          | none => rfl
          | some items => exact congrArg Except.ok (Members.set_unshared shaped "items" items)

end

/-! ## Models of schemas -/

theorem requiredMark_unshared (required key : Value) :
    requiredMark required.unshared key.unshared = (requiredMark required key).unshared := by
  cases required with
  | list names =>
      rw [Value.unshared_list, requiredMark, requiredMark, List.any_map]
      simp only [Function.comp_def, Value.sameKey_unshared_left, Value.sameKey_unshared_right,
        Value.unshared_bool]
  | _ => rfl

theorem draft_unshared (required key property : Value) :
    draft required.unshared key.unshared property.unshared =
      unsharedMembers (draft required key property) := by
  rw [draft_eq, draft_eq, Value.membersOrNil_unshared, requiredMark_unshared,
    Members.set_unshared, Members.set_unshared]

theorem fieldOf_unshared (required : Value) (p : Value × Value) :
    fieldOf required.unshared (p.1.unshared, p.2.unshared) =
      (fieldOf required p).map Field.unshared := by
  refine bind_eq_map (g := unsharedMembers) ?_ fun members => ?_
  · rw [draft_unshared, normalize_unshared]
  · exact checked_of_alike (Field.alike_read (.ofMembers members))

theorem fieldsOf_unshared (required : Value) (properties : Members) :
    fieldsOf required.unshared (unsharedMembers properties) =
      (fieldsOf required properties).map (List.map Field.unshared) := by
  induction properties with
  | nil => rfl
  | cons p rest ih =>
      exact bind_eq_map (fieldOf_unshared required p) fun field => bind_eq_map ih fun others => rfl

theorem toModel_unshared (name schema : Value) :
    toModel name.unshared schema.unshared = (toModel name schema).map Model.unshared := by
  refine bind_eq_map (Value.members_unshared schema) fun ms => ?_
  refine bind_eq_map (g := unsharedMembers) ?_ fun properties => ?_
  · rw [Members.find_unshared, Value.membersIfAny_unshared]
  refine bind_eq_map (g := List.map Field.unshared) ?_ fun fields => ?_
  · rw [Members.find_unshared, fieldsOf_unshared]
  have hname := (Checked.Alike.of_eq (Record.text_unshared name)).under (.member "name")
  refine checked_of_alike (.seq (.map hname ?_) ((Checked.Alike.of_eq ?_).under _))
  · rintro _ _ rfl _ _ rfl
    rfl
  · rw [Members.find_unshared]
    exact Record.nullable_unshared _ Record.text_unshared

theorem namedModels_unshared (schemas : Members) :
    namedModels (unsharedMembers schemas) =
      (namedModels schemas).map (List.map Model.unshared) := by
  induction schemas with
  | nil => rfl
  | cons m rest ih =>
      exact bind_eq_map (toModel_unshared m.1 m.2) fun model => bind_eq_map ih fun others => rfl

/-! ## Models of operations -/

theorem modelName_unshared (operationId : Value) (suffix : String) :
    Naming.modelName operationId.unshared suffix = Naming.modelName operationId suffix := by
  cases operationId <;> rfl

theorem formMedia_unshared (content : Members) :
    formMedia (unsharedMembers content) = (formMedia content).unshared := by
  unfold formMedia
  simp only [Members.find_unshared, Value.isTruthy_unshared]
  split <;> rfl

/-- A form that has forgotten its place. -/
def unsharedForm (form : Option Nat × Members) : Option Nat × Members :=
  (none, unsharedMembers form.2)

theorem inlineForm_unshared (definition : Members) :
    inlineForm (unsharedMembers definition) =
      (inlineForm definition).map (Option.map unsharedForm) := by
  refine bind_eq_map (g := unsharedMembers) ?_ fun body => bind_eq_map (g := unsharedMembers) ?_
    fun content => ?_
  · rw [Members.find_unshared, Value.membersIfAny_unshared]
  · rw [Members.find_unshared, Value.membersIfAny_unshared]
  · rw [formMedia_unshared]
    cases formMedia content with
    | map c media =>
        simp only [Value.unshared_map, Members.find_unshared]
        cases Members.find media "schema" with
        | map c' schema =>
            simp only [Value.unshared_map, Members.has_unshared]
            split <;> rfl
        | _ => rfl
    | _ => rfl

/-- The model of a form, which writes nothing where nothing is shared. -/
theorem formModel_unshared (definition : Members) (operationId : Value) :
    formModel (unsharedMembers definition) operationId.unshared =
      (formModel definition operationId).map fun made => (made.1.map Model.unshared, []) := by
  refine bind_eq_map (inlineForm_unshared definition) fun form => ?_
  cases form with
  | none => rfl
  | some form =>
      obtain ⟨c, schema⟩ := form
      have hname : Naming.modelName operationId.unshared "Request" =
          (Naming.modelName operationId "Request").map id := by
        rw [modelName_unshared]
        cases Naming.modelName operationId "Request" <;> rfl
      refine bind_eq_map hname fun name => ?_
      have htext : formDescription operationId.unshared = formDescription operationId :=
        congrArg ("Request body for operation " ++ ·) (Value.display_unshared operationId)
      have hset := Members.set_unshared schema "description" (.str (formDescription operationId))
      rw [Value.unshared_str] at hset
      simp only [Members.find_unshared, Value.isTruthy_unshared, htext, hset]
      split
      · exact bind_eq_map (toModel_unshared (.str name) (.ofMembers schema)) fun model => rfl
      · exact bind_eq_map (toModel_unshared (.str name) (.ofMembers _)) fun model => rfl

theorem queryParameters_unshared (parameters : List Members) :
    queryParameters (parameters.map unsharedMembers) =
      (queryParameters parameters).map unsharedMembers := by
  rw [queryParameters, queryParameters, List.filter_map]
  simp only [Function.comp_def, Members.find_unshared, Value.isStr_unshared]

theorem parameterProperty_unshared (p : Members) :
    parameterProperty (unsharedMembers p) = (parameterProperty p).map unsharedMembers := by
  rw [parameterProperty_eq, parameterProperty_eq, Members.find_unshared,
    Value.lacksMembers_unshared, Value.membersOrNil_unshared, Members.overlay_unshared,
    Members.erase_unshared, Members.erase_unshared]
  split <;> rfl

theorem parameterProperties_unshared (ps : List Members) (done : Members) :
    parameterProperties (ps.map unsharedMembers) (unsharedMembers done) =
      (parameterProperties ps done).map unsharedMembers := by
  induction ps generalizing done with
  | nil => rfl
  | cons p rest ih =>
      refine bind_eq_map (parameterProperty_unshared p) fun property => ?_
      rw [Members.find?_unshared]
      cases Members.find? p "name" with
      | none => rfl
      | some name =>
          simp only [Option.map_some, Value.isKey_unshared]
          have hput := Members.put_unshared done name (.ofMembers property)
          split
          · rw [← ih, ← hput]
            rfl
          · rfl

theorem requiredNames_unshared (ps : List Members) :
    requiredNames (ps.map unsharedMembers) = (requiredNames ps).map Value.unshared := by
  rw [requiredNames, requiredNames, List.filter_map, List.map_map, List.map_map]
  simp only [Function.comp_def, Members.find_unshared, Value.isTrue_unshared]

theorem querySchema_unshared (operationId : Value) (ps : List Members) :
    querySchema operationId.unshared (ps.map unsharedMembers) =
      (querySchema operationId ps).map unsharedMembers := by
  refine bind_eq_map (parameterProperties_unshared ps []) fun properties => ?_
  rw [Value.display_unshared, requiredNames_unshared, ← Value.unshared_list]
  rfl

theorem queryModel_unshared (definition : Members) (operationId : Value) :
    queryModel (unsharedMembers definition) operationId.unshared =
      (queryModel definition operationId).map (Option.map Model.unshared) := by
  refine bind_eq_map (g := List.map unsharedMembers) ?_ fun parameters => ?_
  · rw [Members.find_unshared, Value.mappingsIfAny_unshared]
  rw [queryParameters_unshared]
  cases queryParameters parameters with
  | nil => rfl
  | cons p rest =>
      have hname : Naming.modelName operationId.unshared "Parameters" =
          (Naming.modelName operationId "Parameters").map id := by
        rw [modelName_unshared]
        cases Naming.modelName operationId "Parameters" <;> rfl
      exact bind_eq_map (querySchema_unshared operationId (p :: rest)) fun schema =>
        bind_eq_map hname fun name =>
          bind_eq_map (toModel_unshared (.str name) (.ofMembers schema)) fun model => rfl

/-! ## Operations -/

/-- The operation whose definition shares nothing. -/
def Site.unshared (s : Site) : Site := ⟨s.template.unshared, s.method, s.definition.unshared⟩

theorem sitesOf_unshared (template item : Value) :
    sitesOf template.unshared item.unshared = (sitesOf template item).map Site.unshared := by
  cases item with
  | map c ms =>
      rw [Value.unshared_map, sitesOf, sitesOf, Value.unsharedMembers_eq_map, List.filterMap_map,
        List.map_filterMap]
      refine congrArg (List.filterMap · ms) (funext fun m => ?_)
      obtain ⟨k, v⟩ := m
      cases k with
      | str method =>
          cases v with
          | map c definition =>
              simp only [Function.comp_apply, Value.unshared_str, Value.unshared_map]
              split <;> rfl
          | _ => rfl
      | _ => rfl
  | _ => rfl

theorem sites_unshared (paths : Members) :
    sites (unsharedMembers paths) = (sites paths).map Site.unshared := by
  induction paths with
  | nil => rfl
  | cons m rest ih =>
      obtain ⟨template, item⟩ := m
      rw [unsharedMembers, sites, sites, List.flatMap_cons, List.flatMap_cons, List.map_append,
        ← sitesOf_unshared]
      exact congrArg _ ih

end Schema

end ApiOutline
