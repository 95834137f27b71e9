import ApiOutline.Proofs.Journal
import ApiOutline.Proofs.Schema.Model
import ApiOutline.Proofs.Schema.Writes
import ApiOutline.Proofs.Value.Json
import ApiOutline.Schema.Extract

/-!
# The models of an operation

The query parameters of an operation become the properties of one schema,
under their names. A name that comes again is in its place already, so the
properties stand as the names come first (`names_parameterProperties`). Names
are texts or missing altogether: nothing else is the name of a field, and a
property under any other key would have stopped the reading.

The form of an operation becomes a model whose fields are those of the form's
schema, with or without a description. In a document where nothing is shared,
no description is seen anywhere else (`formModel_ok`), so the models of each
operation are those of its definition as it stands
(`models_mem_operationModels`).
-/

namespace ApiOutline.Schema

open Record (Checked)

/-! ## Names of fields -/

/-- Whether a value is a text or null. -/
def isName : Value → Bool
  | .null | .str _ => true
  | _ => false

/-- The name of the field that a property becomes, if its key is a text. -/
def nameOf : Value → Option String
  | .str s => some s
  | _ => none

theorem sameKey_iff_of_isName {k k' : Value} (h : isName k = true) :
    k.sameKey k' = true ↔ k = k' := by
  cases k with
  | null => cases k' <;> simp [Value.sameKey]
  | str s => cases k' <;> simp [Value.sameKey]
  | _ => cases h

theorem nameOf_inj {k k' : Value} (h : isName k = true) (h' : isName k' = true) :
    nameOf k = nameOf k' ↔ k = k' := by
  cases k with
  | null => cases k' <;> simp_all [nameOf, isName]
  | str s => cases k' <;> simp_all [nameOf, isName]
  | _ => cases h

/-- Among the values of JSON, a key that names a field is a text or null. -/
theorem isName_of_nullable {k : Value} {name : Option String} (hjson : k.isJson = true)
    (h : Record.nullable Record.text k = .accepted name) : isName k = true ∧ nameOf k = name := by
  cases k with
  | null => cases h; exact ⟨rfl, rfl⟩
  | str s => cases h; exact ⟨rfl, rfl⟩
  | bytes bs => cases hjson
  | _ => cases h

/-- The names of the fields that some properties become. -/
def namesOf (properties : Members) : List (Option String) :=
  (properties.map Prod.fst).map nameOf

/-- The fields of some properties are called as their keys say, and marked as the list of required
names says. -/
theorem fieldsOf_names {required : Value} {properties : Members} {fields : List Field}
    (h : fieldsOf required properties = .ok fields)
    (hjson : ∀ k ∈ properties.map Prod.fst, k.isJson = true) :
    (∀ k ∈ properties.map Prod.fst, isName k = true) ∧
    fields.map Field.name = namesOf properties ∧
    ∀ f ∈ fields, ∃ k ∈ properties.map Prod.fst, nameOf k = f.name ∧
      ∀ b, requiredMark required k = .bool b → f.required = some b := by
  have hall := fieldsOf_ok h
  clear h
  induction hall with
  | nil => simp [namesOf]
  | @cons p f rest others hfield _ ih =>
      rw [List.map_cons, List.forall_mem_cons] at hjson
      obtain ⟨hnames, heq, hmarks⟩ := ih hjson.2
      obtain ⟨hname, hmark⟩ := fieldOf_ok hfield
      obtain ⟨hisName, hnameOf⟩ := isName_of_nullable hjson.1 hname
      refine ⟨?_, ?_, ?_⟩
      · rw [List.map_cons, List.forall_mem_cons]
        exact ⟨hisName, hnames⟩
      · rw [List.map_cons, heq, ← hnameOf]
        rfl
      · intro g hg
        rcases List.mem_cons.1 hg with rfl | hg
        · exact ⟨p.1, List.mem_cons_self, hnameOf, hmark⟩
        · obtain ⟨k, hk, hmarked⟩ := hmarks g hg
          exact ⟨k, List.mem_cons_of_mem _ hk, hmarked⟩

/-! ## Query parameters -/

/-- The parameters that an operation takes in the query. -/
def queryOf (definition : Members) : List Members :=
  queryParameters (Members.find definition "parameters").mappingsOrNil

/-- The name of a parameter. -/
def parameterName (parameter : Members) : Option String :=
  nameOf (Members.find parameter "name")

theorem parameterProperty_eq (p : Members) :
    parameterProperty p =
      if (Members.find p "schema").lacksMembers then .error .wrongKind
      else .ok (Members.erase (Members.erase
        (Members.overlay p (Members.find p "schema").membersOrNil) "in") "schema") := by
  unfold parameterProperty Value.lacksMembers
  cases hschema : Members.find p "schema" with
  | map c own =>
      rw [Value.isMap, Bool.not_true, Bool.and_false, if_neg Bool.false_ne_true]
      rfl
  | _ =>
      simp only [Value.isMap, Bool.not_false, Bool.and_true]
      split <;> rfl

/-- Properties that are there stay where they are, and all others are named by a parameter. -/
theorem keys_parameterProperties {ps : List Members} {done properties : Members}
    (h : parameterProperties ps done = .ok properties) :
    done.map Prod.fst <+: properties.map Prod.fst ∧
      ∀ k ∈ properties.map Prod.fst, k ∈ done.map Prod.fst ∨
        ∃ p ∈ ps, Members.find p "name" = k := by
  induction ps generalizing done with
  | nil =>
      cases h
      exact ⟨List.prefix_rfl, fun k hk => Or.inl hk⟩
  | cons p rest ih =>
      obtain ⟨property, _, h⟩ := bind_eq_ok.1 h
      split at h
      · cases h
      · next name hname =>
          split at h
          · obtain ⟨hstay, hmem⟩ := ih h
            have hkeys := Members.map_fst_put done name (.ofMembers property)
            constructor
            · refine List.IsPrefix.trans ?_ hstay
              rw [hkeys]
              split
              · exact List.prefix_rfl
              · exact List.prefix_append _ _
            · intro k hk
              rcases hmem k hk with hdone | ⟨q, hq, hqname⟩
              · rw [hkeys] at hdone
                split at hdone
                · exact Or.inl hdone
                · rcases List.mem_append.1 hdone with hdone | hnew
                  · exact Or.inl hdone
                  · refine Or.inr ⟨p, List.mem_cons_self, ?_⟩
                    rw [Members.find_of_find? hname, List.mem_singleton.1 hnew]
              · exact Or.inr ⟨q, List.mem_cons_of_mem _ hq, hqname⟩
          · cases h

/-- A name that is there makes no difference to the names that are new, and one that is not is the
first of them. -/
theorem append_eraseDups_removeAll {α : Type} [BEq α] [LawfulBEq α] (n : α) (done todo : List α) :
    done ++ ((n :: todo).removeAll done).eraseDups =
      if n ∈ done then done ++ (todo.removeAll done).eraseDups
      else (done ++ [n]) ++ (todo.removeAll (done ++ [n])).eraseDups := by
  rw [List.cons_removeAll]
  by_cases hn : n ∈ done
  · rw [if_pos hn, if_neg (by simp [hn])]
  · have hboth : todo.removeAll (done ++ [n]) = (todo.removeAll done).filter fun x => !x == n := by
      rw [List.removeAll, List.removeAll, List.filter_filter]
      refine List.filter_congr fun x _ => ?_
      by_cases hx : x = n <;> simp [hx]
    rw [if_neg hn, if_pos (by simp [hn]), List.eraseDups_cons, hboth, List.append_assoc,
      List.singleton_append]

theorem namesOf_put {done : Members} {name v : Value}
    (h : ∀ k ∈ (Members.put done name v).map Prod.fst, isName k = true) :
    isName name = true ∧
    namesOf (Members.put done name v) =
      if nameOf name ∈ namesOf done then namesOf done else namesOf done ++ [nameOf name] := by
  unfold namesOf
  rw [Members.map_fst_put] at h ⊢
  cases hhas : Members.has done name with
  | true =>
      rw [hhas, if_pos rfl] at h
      obtain ⟨m, hm, hsame⟩ := List.any_eq_true.1 hhas
      have hkey : m.1 ∈ done.map Prod.fst := List.mem_map_of_mem hm
      have heq : m.1 = name := (sameKey_iff_of_isName (h _ hkey)).1 hsame
      rw [← heq, if_pos rfl, if_pos (List.mem_map_of_mem hkey)]
      exact ⟨h _ hkey, rfl⟩
  | false =>
      rw [hhas, if_neg Bool.false_ne_true] at h
      have hname : isName name = true := h name (List.mem_append_right _ List.mem_cons_self)
      have hnot : nameOf name ∉ (done.map Prod.fst).map nameOf := by
        intro hmem
        obtain ⟨k, hk, hsame⟩ := List.mem_map.1 hmem
        have hkname := h k (List.mem_append_left _ hk)
        obtain ⟨m, hm, rfl⟩ := List.mem_map.1 hk
        have hsameKey := (sameKey_iff_of_isName hkname).2 ((nameOf_inj hkname hname).1 hsame)
        rw [Members.has, List.any_eq_false] at hhas
        exact hhas m hm hsameKey
      rw [if_neg Bool.false_ne_true, if_neg hnot, List.map_append]
      exact ⟨hname, rfl⟩

/-- Query parameters become properties under their names, in the order in which these come
first. -/
theorem names_parameterProperties {ps : List Members} {done properties : Members}
    (h : parameterProperties ps done = .ok properties)
    (hnames : ∀ k ∈ properties.map Prod.fst, isName k = true) :
    (∀ p ∈ ps, isName (Members.find p "name") = true) ∧
    namesOf properties =
      namesOf done ++ ((ps.map parameterName).removeAll (namesOf done)).eraseDups := by
  induction ps generalizing done with
  | nil =>
      cases h
      simp
  | cons p rest ih =>
      obtain ⟨property, _, h⟩ := bind_eq_ok.1 h
      split at h
      · cases h
      · next name hname =>
          split at h
          · obtain ⟨hrest, hall⟩ := ih h
            obtain ⟨hstay, -⟩ := keys_parameterProperties h
            obtain ⟨hisName, hput⟩ := namesOf_put fun k hk => hnames k (hstay.subset hk)
            have hfind : Members.find p "name" = name := Members.find_of_find? hname
            refine ⟨List.forall_mem_cons.2 ⟨by rw [hfind]; exact hisName, hrest⟩, ?_⟩
            rw [hall, hput, List.map_cons, append_eraseDups_removeAll, parameterName, hfind]
            split
            · rfl
            · rfl
          · cases h

/-- Whether a query parameter with some name is required. -/
def isRequired (definition : Members) (name : Option String) : Bool :=
  (queryOf definition).any fun p =>
    parameterName p == name && (Members.find p "required").isTrue

theorem requiredMark_query {definition : Members} {k : Value} (hk : isName k = true)
    (hnames : ∀ p ∈ queryOf definition, isName (Members.find p "name") = true) :
    requiredMark (.list (requiredNames (queryOf definition))) k =
      .bool (isRequired definition (nameOf k)) := by
  rw [requiredMark]
  refine congrArg Value.bool ?_
  rw [Bool.eq_iff_iff, List.any_eq_true, isRequired, List.any_eq_true]
  constructor
  · rintro ⟨name, hname, hsame⟩
    obtain ⟨p, hp, rfl⟩ := List.mem_map.1 hname
    obtain ⟨hp, hrequired⟩ := List.mem_filter.1 hp
    rw [sameKey_iff_of_isName hk] at hsame
    refine ⟨p, hp, ?_⟩
    rw [parameterName, ← hsame, beq_self_eq_true, Bool.true_and]
    exact hrequired
  · rintro ⟨p, hp, hboth⟩
    rw [Bool.and_eq_true, beq_iff_eq, parameterName, nameOf_inj (hnames p hp) hk] at hboth
    refine ⟨Members.find p "name", List.mem_map_of_mem (List.mem_filter.2 ⟨hp, hboth.2⟩), ?_⟩
    rw [sameKey_iff_of_isName hk]
    exact hboth.1.symm

variable {definition : Members} {id : String}

theorem of_mem_queryOf {p : Members} (hp : p ∈ queryOf definition) :
    ∃ items c, Members.find definition "parameters" = .list items ∧ .map c p ∈ items := by
  have hmem := (List.mem_filter.1 hp).1
  cases hv : Members.find definition "parameters" with
  | list items =>
      rw [hv] at hmem
      obtain ⟨item, hitem, hmap⟩ := List.mem_filterMap.1 hmem
      cases item with
      | map c ms =>
          cases hmap
          exact ⟨items, c, rfl, hitem⟩
      | _ => cases hmap
  | _ =>
      rw [hv] at hmem
      cases hmem

theorem isJson_of_mem_queryOf {cell : Option Nat} {p : Members}
    (hjson : (Value.map cell definition).isJson = true) (hp : p ∈ queryOf definition) :
    (Value.map none p).isJson = true := by
  have hparameters := Value.isJson_find hjson "parameters"
  obtain ⟨items, c, hv, hitem⟩ := of_mem_queryOf hp
  rw [hv] at hparameters
  have hjsonItem := Value.areJson_iff.1 hparameters _ hitem
  rw [(Value.isJson_map.1 hjsonItem).1] at hjsonItem
  exact hjsonItem

/-- Query parameters are bundled in a model, if there are any. -/
inductive IsQueryModel (definition : Members) (operationId : Value) : Option Model → Prop
  | none (noQuery : queryOf definition = []) : IsQueryModel definition operationId none
  | bundled {properties : Members} {model : Model}
      (isRead : parameterProperties (queryOf definition) [] = .ok properties)
      (name : Naming.modelName operationId "Parameters" = .ok model.name)
      (fields : fieldsOf (.list (requiredNames (queryOf definition))) properties =
        .ok model.fields) :
      IsQueryModel definition operationId (some model)

theorem isQueryModel_of_queryModel {operationId : Value} {found : Option Model}
    (h : queryModel definition operationId = .ok found) :
    IsQueryModel definition operationId found := by
  obtain ⟨parameters, hparameters, h⟩ := bind_eq_ok.1 h
  have hfiltered : queryParameters parameters = queryOf definition := by
    rw [Value.eq_mappingsOrNil hparameters]
    rfl
  rw [hfiltered] at h
  split at h
  · next hnil =>
      cases h
      exact .none hnil
  · obtain ⟨schema, hschema, h⟩ := bind_eq_ok.1 h
    obtain ⟨name, hname, h⟩ := bind_eq_ok.1 h
    obtain ⟨model, hmodel, h⟩ := bind_eq_ok.1 h
    obtain ⟨properties, hproperties, hschema⟩ := bind_eq_ok.1 hschema
    cases h
    cases hschema
    obtain ⟨rfl, hfields⟩ := toModel_ok hmodel
    obtain ⟨ps, hps, hfields⟩ := bind_eq_ok.1 hfields
    rw [Value.eq_membersOrNil hps] at hfields
    exact .bundled hproperties hname hfields

/-- The model that bundles the query parameters of an operation, with its fields. -/
def bundleModel (id : String) (fields : List Field) : Model :=
  ⟨Naming.capitalizeFirst id ++ "Parameters", some ("Query parameters for operation " ++ id),
    fields⟩

theorem queryModel_eq {properties : Members} {parameters : List Members} {fields : List Field}
    (hparameters : (Members.find definition "parameters").mappingsIfAny = .ok parameters)
    (hquery : queryParameters parameters ≠ [])
    (hproperties : parameterProperties (queryParameters parameters) [] = .ok properties)
    (hfields : fieldsOf (.list (requiredNames (queryParameters parameters))) properties =
      .ok fields) :
    queryModel definition (.str id) = .ok (some (bundleModel id fields)) := by
  have hmodel : ∀ schema, querySchema (.str id) (queryParameters parameters) = .ok schema →
      toModel (.str (Naming.capitalizeFirst id ++ "Parameters")) (.ofMembers schema) =
        .ok (bundleModel id fields) := by
    intro schema hschema
    obtain ⟨_, hread, hschema⟩ := bind_eq_ok.1 hschema
    cases hproperties.symm.trans hread
    cases hschema
    refine toModel_eq ?_ rfl _
    exact bind_eq_ok.2 ⟨properties, Value.membersIfAny_map none properties, hfields⟩
  obtain ⟨schema, hschema⟩ : ∃ schema,
      querySchema (.str id) (queryParameters parameters) = .ok schema :=
    ⟨_, bind_eq_ok.2 ⟨properties, hproperties, rfl⟩⟩
  have hmade := hmodel schema hschema
  refine bind_eq_ok.2 ⟨parameters, hparameters, ?_⟩
  split
  · next hnil => exact absurd hnil hquery
  · exact bind_eq_ok.2 ⟨schema, hschema, bind_eq_ok.2 ⟨_, rfl, bind_eq_ok.2 ⟨_, hmade, rfl⟩⟩⟩

/-- The model of some query parameters has one field for each of their names, in the order in which
these come first, and each field is required if one of the parameters with its name is. -/
theorem queryModel_ok {cell : Option Nat} {found : Option Model}
    (hjson : (Value.map cell definition).isJson = true) (hquery : queryOf definition ≠ [])
    (h : queryModel definition (.str id) = .ok found) :
    ∃ model, found = some model ∧ model.name = Naming.capitalizeFirst id ++ "Parameters" ∧
      model.fields.map Field.name = ((queryOf definition).map parameterName).eraseDups ∧
      ∀ field ∈ model.fields, field.required = some (isRequired definition field.name) := by
  cases isQueryModel_of_queryModel h with
  | none hnil => exact absurd hnil hquery
  | @bundled properties model hproperties hname hfields =>
      have hkeys : ∀ k ∈ properties.map Prod.fst, k.isJson = true := by
        intro k hk
        rcases (keys_parameterProperties hproperties).2 k hk with hnone | ⟨p, hp, rfl⟩
        · cases hnone
        · exact Value.isJson_find (isJson_of_mem_queryOf hjson hp) "name"
      obtain ⟨hisName, hfieldNames, hmarks⟩ := fieldsOf_names hfields hkeys
      obtain ⟨hqueryNames, hnames⟩ := names_parameterProperties hproperties hisName
      have hnil : namesOf [] = [] := rfl
      rw [hnil, List.removeAll_nil, List.nil_append] at hnames
      refine ⟨model, rfl, (Except.ok.inj hname).symm, hfieldNames.trans hnames,
        fun field hfield => ?_⟩
      obtain ⟨k, hk, hmatch, hmark⟩ := hmarks field hfield
      rw [← hmatch]
      exact hmark _ (requiredMark_query (hisName k hk) hqueryNames)

/-! ## Forms -/

/-- The media types that an operation can be sent in. -/
def contentOf (definition : Members) : Members :=
  (Members.find (Members.find definition "requestBody").membersOrNil "content").membersOrNil

/-- The schema of what an operation is sent in one of its media types. -/
def sentIn (definition : Members) (mediaType : String) : Value :=
  Members.find (Members.find (contentOf definition) mediaType).membersOrNil "schema"

/-- The schema of a form, if it is written out in place and has properties. -/
def writtenForm (definition : Members) : Option (Option Nat × Members) :=
  match Members.find (formMedia (contentOf definition)).membersOrNil "schema" with
  | .map c schema => if Members.has schema (.str "properties") then some (c, schema) else none
  | _ => none

theorem writtenForm_eq_some {c : Option Nat} {schema : Members} :
    writtenForm definition = some (c, schema) ↔
      Members.find (formMedia (contentOf definition)).membersOrNil "schema" = .map c schema ∧
        Members.has schema (.str "properties") = true := by
  unfold writtenForm
  split
  · next c' schema' hschema =>
      rw [hschema]
      split
      · next hhas =>
          constructor
          · intro h
            cases h
            exact ⟨rfl, hhas⟩
          · rintro ⟨h, -⟩
            cases h
            rfl
      · next hhas =>
          constructor
          · intro h
            cases h
          · rintro ⟨h, hhas'⟩
            cases h
            exact absurd hhas' hhas
  · next hother =>
      constructor
      · intro h
        cases h
      · rintro ⟨h, -⟩
        exact absurd h (hother c schema)

/-- The form is found unless one of the mappings around it is something else. -/
theorem inlineForm_eq (definition : Members) :
    inlineForm definition =
      if (Members.find definition "requestBody").lacksMembers ||
          (Members.find (Members.find definition "requestBody").membersOrNil "content").lacksMembers
      then .error .noMembers else .ok (writtenForm definition) := by
  unfold inlineForm writtenForm contentOf
  rw [Value.membersIfAny_eq]
  cases (Members.find definition "requestBody").lacksMembers with
  | true => rfl
  | false =>
      simp only [Bool.false_eq_true, if_false, Bool.false_or]
      show Value.membersIfAny _ >>= _ = _
      rw [Value.membersIfAny_eq]
      split
      · rfl
      · show (match formMedia _ with | .map _ media => _ | _ => _) = _
        cases formMedia (Members.find (Members.find definition "requestBody").membersOrNil
          "content").membersOrNil with
        | map cell media =>
            simp only [Value.membersOrNil]
            cases Members.find media "schema" <;> rfl
        | _ => rfl

theorem inlineForm_ok {found : Option (Option Nat × Members)}
    (h : inlineForm definition = .ok found) : found = writtenForm definition := by
  rw [inlineForm_eq] at h
  split at h
  · cases h
  · exact (Except.ok.inj h).symm

theorem isJson_formMedia {cell : Option Nat} (hjson : (Value.map cell definition).isJson = true) :
    (formMedia (contentOf definition)).isJson = true := by
  have hbody := Value.isJson_find hjson "requestBody"
  have hcontent := Value.isJson_find_membersOrNil hbody "content"
  unfold formMedia
  simp only []
  split
  · exact Value.isJson_find_membersOrNil hcontent _
  · exact Value.isJson_find_membersOrNil hcontent _

/-- What is made for the form of an operation and what is written into its schema: nothing without
a form, and a description that names the operation where the form has none of its own. -/
inductive IsFormModel (definition : Members) (operationId : Value) : Option Model → Writes → Prop
  | none (noForm : writtenForm definition = none) : IsFormModel definition operationId none []
  | described {c : Option Nat} {schema : Members} {model : Model}
      (isForm : writtenForm definition = some (c, schema))
      (name : Naming.modelName operationId "Request" = .ok model.name)
      (fields : fieldsIn schema = .ok model.fields)
      (hasText : (Members.find schema "description").isTruthy = true) :
      IsFormModel definition operationId (some model) []
  | undescribed {c : Option Nat} {schema : Members} {model : Model}
      (isForm : writtenForm definition = some (c, schema))
      (name : Naming.modelName operationId "Request" = .ok model.name)
      (fields : fieldsIn schema = .ok model.fields)
      (noText : (Members.find schema "description").isTruthy = false)
      (description : model.description = some (formDescription operationId)) :
      IsFormModel definition operationId (some model)
        (c.toList.map fun c => (c, formDescription operationId))

theorem isFormModel_of_formModel {operationId : Value} {found : Option Model} {writes : Writes}
    (h : formModel definition operationId = .ok (found, writes)) :
    IsFormModel definition operationId found writes := by
  obtain ⟨form, hform, h⟩ := bind_eq_ok.1 h
  rw [inlineForm_ok hform] at h
  cases hwritten : writtenForm definition with
  | none =>
      rw [hwritten] at h
      cases h
      exact .none hwritten
  | some found =>
      obtain ⟨c, schema⟩ := found
      rw [hwritten] at h
      obtain ⟨name, hname, h⟩ := bind_eq_ok.1 h
      split at h
      · next htext =>
          obtain ⟨model, hmodel, hend⟩ := bind_eq_ok.1 h
          cases hend
          obtain ⟨rfl, hfields⟩ := toModel_ok hmodel
          exact .described hwritten hname hfields htext
      · next htext =>
          obtain ⟨model, hmodel, hend⟩ := bind_eq_ok.1 h
          cases hend
          obtain ⟨_, _, hmap, hread, hdescription, hfields⟩ := exists_schema_of_toModel hmodel
          cases hmap
          cases hread
          rw [Members.find, Members.find?_set_self] at hdescription
          rw [fieldsIn_set _ (by decide) (by decide)] at hfields
          exact .undescribed hwritten hname hfields (Bool.eq_false_iff.2 htext)
            (Checked.accepted.inj hdescription).symm

/-- The model of a form has the fields of the form's schema. -/
theorem formModel_some {operationId : Value} {model : Model} {writes : Writes}
    (h : formModel definition operationId = .ok (some model, writes)) :
    ∃ c schema, writtenForm definition = some (c, schema) ∧
      Naming.modelName operationId "Request" = .ok model.name ∧
      fieldsIn schema = .ok model.fields := by
  cases isFormModel_of_formModel h with
  | described hform hname hfields _ => exact ⟨_, _, hform, hname, hfields⟩
  | undescribed hform hname hfields _ _ => exact ⟨_, _, hform, hname, hfields⟩

/-- Where nothing is shared, no description is handed on. -/
theorem formModel_ok {cell : Option Nat} {operationId : Value} {found : Option Model}
    {writes : Writes} (hjson : (Value.map cell definition).isJson = true)
    (h : formModel definition operationId = .ok (found, writes)) :
    writes = [] ∧ ∀ c schema, writtenForm definition = some (c, schema) →
      ∃ model, found = some model ∧ Naming.modelName operationId "Request" = .ok model.name ∧
        fieldsIn schema = .ok model.fields := by
  cases isFormModel_of_formModel h with
  | none hnone =>
      refine ⟨rfl, fun c schema hform => ?_⟩
      rw [hnone] at hform
      cases hform
  | @described _ _ model hform hname hfields _ =>
      refine ⟨rfl, fun c schema hsame => ?_⟩
      cases hform.symm.trans hsame
      exact ⟨model, rfl, hname, hfields⟩
  | @undescribed _ _ model hform hname hfields _ _ =>
      -- The schema gets a description, and in JSON it has no cell to keep it in.
      have hschema := Value.isJson_find_membersOrNil (isJson_formMedia hjson) "schema"
      rw [(writtenForm_eq_some.1 hform).1, Value.isJson_map] at hschema
      refine ⟨by rw [hschema.1]; rfl, fun c schema hsame => ?_⟩
      cases hform.symm.trans hsame
      exact ⟨model, rfl, hname, hfields⟩

/-! ## All operations -/

variable {models : List Model} {sites : List Site} {later : Writes}

theorem modelsOf_ok {cell : Option Nat} {operationId : Value} {writes : Writes}
    (hjson : (Value.map cell definition).isJson = true)
    (h : modelsOf (.map cell definition) operationId = .ok (models, writes)) :
    writes = [] ∧ ∃ form query, formModel definition operationId = .ok (form, []) ∧
      queryModel definition operationId = .ok query ∧ models = form.toList ++ query.toList := by
  obtain ⟨ms, hms, h⟩ := bind_eq_ok.1 h
  cases hms
  obtain ⟨⟨form, writes'⟩, hform, h⟩ := bind_eq_ok.1 h
  obtain ⟨rfl, -⟩ := formModel_ok hjson hform
  obtain ⟨ms, hms, h⟩ := bind_eq_ok.1 h
  cases hms
  obtain ⟨query, hquery, h⟩ := bind_eq_ok.1 h
  cases h
  exact ⟨rfl, form, query, hform, hquery, rfl⟩

/-- The models of an operation with an id go in front of those of the operations after it. -/
theorem result_operationModels_of_id {ws writes : Writes} {s : Site} {cell : Option Nat}
    (happly : ws.apply s.definition = .map cell definition)
    (hid : (Members.find definition "operationId").isTruthy = true)
    (hmade : modelsOf (.map cell definition) (Members.find definition "operationId") =
      .ok (models, writes)) :
    (operationModels ws (s :: sites)).result =
      (operationModels (ws ++ writes) sites).result >>= fun found =>
        .ok (found.2.settle models ++ found.1, writes ++ found.2) := by
  rw [operationModels, happly, Logged.result_bind]
  show (if (Members.find definition "operationId").isTruthy then _ else _ : Logged _).result = _
  rw [if_pos hid, Logged.result_bind, hmade]
  exact Logged.result_bind _ _

theorem result_models_of_parts {document schemas paths : Members} {named : List Model}
    {writes : Writes} {cell : Option Nat} (hschemas : namedSchemas document = .ok schemas)
    (hnamed : namedModels schemas = .ok named)
    (hpaths : (Members.find document "paths").membersIfAny = .ok paths)
    (hfound : (operationModels [] (Schema.sites paths)).result = .ok (models, writes)) :
    (Schema.models (.map cell document)).result =
      .ok (writes.settle named ++ Model.attachment :: models) := by
  show (Logged.ofExcept (namedSchemas document) >>= _).result = _
  rw [hschemas]
  show (Logged.ofExcept (namedModels schemas) >>= _).result = _
  rw [hnamed]
  show (Logged.ofExcept (Members.find document "paths").membersIfAny >>= _).result = _
  rw [hpaths]
  show (operationModels [] (Schema.sites paths) >>= _).result = _
  rw [Logged.result_bind, hfound]
  rfl

/-- The models of a document whose one operation writes nothing. -/
theorem result_models_single {document schemas paths : Members} {named : List Model} {s : Site}
    {cell cell' : Option Nat} (hschemas : namedSchemas document = .ok schemas)
    (hnamed : namedModels schemas = .ok named)
    (hpaths : (Members.find document "paths").membersIfAny = .ok paths)
    (hsites : Schema.sites paths = [s]) (hdefinition : s.definition = .map cell definition)
    (hid : (Members.find definition "operationId").isTruthy = true)
    (hmade : modelsOf (.map cell definition) (Members.find definition "operationId") =
      .ok (models, [])) :
    (Schema.models (.map cell' document)).result = .ok (named ++ Model.attachment :: models) := by
  have hfound : (operationModels [] (Schema.sites paths)).result = .ok (models, []) := by
    have happly : Writes.apply [] s.definition = .map cell definition := hdefinition
    rw [hsites, result_operationModels_of_id happly hid hmade]
    show Except.ok (Writes.settle [] models ++ [], []) = _
    rw [Writes.settle_nil, List.append_nil]
  rw [result_models_of_parts hschemas hnamed hpaths hfound, Writes.settle_nil]

/-- An operation with an id adds its models to those of the operations after it, and no writes. -/
theorem operationModels_cons {t : Site} (hjson : t.definition.isJson = true)
    (h : (operationModels [] (t :: sites)).result = .ok (models, later)) :
    ∃ cell definition added others, t.definition = .map cell definition ∧
      (operationModels [] sites).result = .ok (others, later) ∧
      models = later.settle added ++ others ∧
      ((Members.find definition "operationId").isTruthy = true → ∃ form query,
        formModel definition (Members.find definition "operationId") = .ok (form, []) ∧
        queryModel definition (Members.find definition "operationId") = .ok query ∧
        added = form.toList ++ query.toList) := by
  have happly : Writes.apply [] t.definition = t.definition := rfl
  rw [operationModels, happly] at h
  obtain ⟨definition, hmembers, h⟩ := Logged.result_bind_eq_ok.1 h
  obtain ⟨cell, hmap⟩ := Value.members_eq_ok hmembers
  rw [hmap] at hjson h
  simp only [] at h
  split at h
  · obtain ⟨⟨added, writes⟩, hadded, h⟩ := Logged.result_bind_eq_ok.1 h
    obtain ⟨⟨others, later⟩, hothers, h⟩ := Logged.result_bind_eq_ok.1 h
    cases h
    obtain ⟨rfl, form, query, hform, hquery, rfl⟩ := modelsOf_ok hjson hadded
    exact ⟨cell, definition, _, others, hmap, hothers, rfl,
      fun _ => ⟨form, query, hform, hquery, rfl⟩⟩
  · next hid =>
      obtain ⟨_, _, h⟩ := Logged.result_bind_eq_ok.1 h
      exact ⟨cell, definition, [], models, hmap, h, rfl, fun hid' => absurd hid' hid⟩

/-- In a document where nothing is shared nothing is written. -/
theorem writes_operationModels (hjson : ∀ s ∈ sites, s.definition.isJson = true)
    (h : (operationModels [] sites).result = .ok (models, later)) : later = [] := by
  induction sites generalizing models with
  | nil =>
      cases h
      rfl
  | cons t rest ih =>
      obtain ⟨ht, hrest⟩ := List.forall_mem_cons.1 hjson
      obtain ⟨_, _, _, _, _, hothers, -⟩ := operationModels_cons ht h
      exact ih hrest hothers

/-- In a document where nothing is shared, the models of each operation with an id are those of its
definition. -/
theorem models_mem_operationModels (hjson : ∀ s ∈ sites, s.definition.isJson = true)
    (h : (operationModels [] sites).result = .ok (models, later)) {s : Site} (hs : s ∈ sites)
    {cell : Option Nat} (hdefinition : s.definition = .map cell definition)
    (hid : (Members.find definition "operationId").isTruthy = true) :
    ∃ form query, formModel definition (Members.find definition "operationId") = .ok (form, []) ∧
      queryModel definition (Members.find definition "operationId") = .ok query ∧
      ∀ model ∈ form.toList ++ query.toList, model ∈ models := by
  induction sites generalizing models with
  | nil => cases hs
  | cons t rest ih =>
      obtain ⟨ht, hrest⟩ := List.forall_mem_cons.1 hjson
      obtain ⟨cell', definition', added, others, hmap, hothers, rfl, hadded⟩ :=
        operationModels_cons ht h
      rw [writes_operationModels hrest hothers, Writes.settle_nil]
      rcases List.mem_cons.1 hs with rfl | hs
      · rw [hdefinition] at hmap
        cases hmap
        obtain ⟨form, query, hform, hquery, rfl⟩ := hadded hid
        exact ⟨form, query, hform, hquery, fun model hm => List.mem_append_left _ hm⟩
      · obtain ⟨form, query, hform, hquery, hmem⟩ := ih hrest hothers hs
        exact ⟨form, query, hform, hquery, fun model hm => List.mem_append_right _ (hmem model hm)⟩

/-- What a path item has for one of the methods of operations is among the operations. -/
theorem site_mem_sites {paths : Members} {template : Value} {cell cell' : Option Nat}
    {item : Members} {method : String} (hitem : (template, .map cell item) ∈ paths)
    (hmethod : method ∈ httpMethods)
    (hdefinition : Members.find item method = .map cell' definition) :
    (⟨template, method, .map cell' definition⟩ : Site) ∈ Schema.sites paths := by
  have hmem : (.str method, .map cell' definition) ∈ item :=
    Members.mem_of_find hdefinition (by simp)
  exact List.mem_flatMap.2 ⟨_, hitem, List.mem_filterMap.2 ⟨_, hmem,
    if_pos (List.contains_iff_mem.2 hmethod)⟩⟩

/-- An operation of a document is a mapping that a path item has for its method. -/
theorem of_mem_sites {paths : Members} {s : Site} (hs : s ∈ Schema.sites paths) :
    ∃ c item c' definition, (s.template, .map c item) ∈ paths ∧
      (.str s.method, s.definition) ∈ item ∧ s.definition = .map c' definition := by
  obtain ⟨⟨template, item⟩, hm, hsite⟩ := List.mem_flatMap.1 hs
  unfold sitesOf at hsite
  split at hsite
  · next c members hmap =>
      cases hmap
      obtain ⟨⟨k, v⟩, hmem, hsite⟩ := List.mem_filterMap.1 hsite
      split at hsite
      · next method c' definition hkey hvalue =>
          cases hkey
          cases hvalue
          split at hsite
          · cases hsite
            exact ⟨c, members, c', definition, hm, hmem, rfl⟩
          · cases hsite
      · cases hsite
  · cases hsite

theorem isJson_of_mem_sites {paths : Members} {cell : Option Nat}
    (hjson : (Value.map cell paths).isJson = true) :
    ∀ s ∈ Schema.sites paths, s.definition.isJson = true := by
  intro s hs
  obtain ⟨_, _, _, _, hitem, hdefinition, -⟩ := of_mem_sites hs
  exact Value.isJson_of_mem (Value.isJson_of_mem hjson hitem) hdefinition

end ApiOutline.Schema
