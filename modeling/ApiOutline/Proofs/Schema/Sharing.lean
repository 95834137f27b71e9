import ApiOutline.Proofs.Schema.Kept
import ApiOutline.Proofs.Schema.Unshared
import Mathlib.Data.List.Permutation

/-!
# When sharing is safe

The description that a form gets is written into its schema, and where the
schema stands a second time it is seen there too. So the models depend on
sharing, unless each schema that is written to stands apart from two things
(`WritesApart`). One is what is read later: the query parameters of its own
operation, and the id, the forms and the query parameters of the operations
after it. The other is what was kept before: the examples, defaults and choices
in the fields of named schemas and of the operations before. A schema may still
be a named schema or a property of one, which is read before, and stand among
responses and headers, which are not read at all.

A step of the reading looks at nothing that was written then
(`result_operationModels_cons`), and what it made is not written to afterwards
(`settle_of_kept`). So by induction on the operations the writes could as well
have been left out.
-/

namespace ApiOutline.Schema

open Record (Checked)
open Value (unsharedMembers)

variable {document : Value} {models : List Model} {s : Site} {rest sites : List Site}
  {definition definition' : Members} {operationId : Value} {ws : Writes} {vs : List Value}

/-- The query parameters of an operation, with their places. -/
def queryValues (definition : Members) : List Value :=
  match Members.find definition "parameters" with
  | .list items => items.filter fun p => (Members.find p.membersOrNil "in").isStr "query"
  | _ => []

/-- The values that the models of an operation are made from. Without an id there are none. -/
def readings (definition : Members) : List Value :=
  Members.find definition "operationId" ::
    if (Members.find definition "operationId").isTruthy then
      Members.find (contentOf definition) Definition.formMediaType ::
        Members.find (contentOf definition) Definition.multipartMediaType :: queryValues definition
    else []

/-- The place that the description of an operation's form is written to. -/
def writtenCell (definition : Members) : Option Nat :=
  match writtenForm definition with
  | some (c, schema) =>
      if (Members.find definition "operationId").isTruthy &&
          !(Members.find schema "description").isTruthy then c
      else none
  | none => none

/-- Whether no description is written to a place that is read afterwards, or that a field made
before keeps. -/
structure WritesApart (schemas : Members) (sites : List Site) : Prop where
  own : ∀ s ∈ sites, ∀ cell ∈ writtenCell s.members, ∀ v ∈ queryValues s.members,
    v.holds cell = false
  later : sites.Pairwise fun s t => ∀ cell ∈ writtenCell s.members, ∀ v ∈ readings t.members,
    v.holds cell = false
  named : ∀ s ∈ sites, ∀ cell ∈ writtenCell s.members, ∀ v, KeptByNamed schemas v →
    v.holds cell = false
  kept : sites.Pairwise fun s t => ∀ cell ∈ writtenCell t.members, ∀ v, KeptBy s.members v →
    v.holds cell = false

/-- Whether none of some values is written to. -/
def Writes.Spare (ws : Writes) (vs : List Value) : Prop :=
  ∀ w ∈ ws, ∀ v ∈ vs, v.holds w.1 = false

theorem Writes.Spare.mono (h : ws.Spare vs) {vs' : List Value} (hsub : vs' ⊆ vs) : ws.Spare vs' :=
  fun w hw v hv => h w hw v (hsub hv)

theorem Writes.Spare.append {ws' : Writes} (h : ws.Spare vs) (h' : ws'.Spare vs) :
    Writes.Spare (ws ++ ws') vs :=
  fun w hw => (List.mem_append.1 hw).elim (h w) (h' w)

theorem Writes.Spare.apply (h : ws.Spare vs) {v : Value} (hv : v ∈ vs) : ws.apply v = v :=
  Writes.apply_of_not_holds fun w hw => h w hw v hv

/-! ## What a step reads -/

theorem inlineForm_of_spare (halike : ws.Alike definition definition')
    (hspare : ws.Spare [Members.find (contentOf definition) Definition.formMediaType,
      Members.find (contentOf definition) Definition.multipartMediaType]) :
    inlineForm definition' = inlineForm definition := by
  have hbody := halike.find (show "requestBody" ≠ "description" by decide)
  have hinner := Writes.alike_membersOrNil ws (Members.find definition "requestBody")
  rw [← hbody] at hinner
  have hmedia : formMedia (contentOf definition') = formMedia (contentOf definition) := by
    unfold formMedia
    rw [(contentOf_alike halike).find (by decide), (contentOf_alike halike).find (by decide),
      hspare.apply List.mem_cons_self, hspare.apply (List.mem_cons_of_mem _ List.mem_cons_self)]
  have hwritten : writtenForm definition' = writtenForm definition := by
    unfold writtenForm
    rw [hmedia]
  rw [inlineForm_eq, inlineForm_eq, hwritten, hbody, Writes.lacksMembers_apply, ← hbody,
    hinner.find (by decide), Writes.lacksMembers_apply]

theorem queryParameters_of_spare {items : List Value}
    (hspare : ws.Spare (items.filter fun p => (Members.find p.membersOrNil "in").isStr "query")) :
    queryParameters (Value.mappings (items.map ws.apply)) =
      queryParameters (Value.mappings items) := by
  induction items with
  | nil => rfl
  | cons v rest ih =>
      have hrest := ih fun w hw p hp => hspare w hw p (List.mem_filter.2
        ⟨List.mem_cons_of_mem _ (List.mem_filter.1 hp).1, (List.mem_filter.1 hp).2⟩)
      cases v with
      | map c ms =>
          obtain ⟨ms', hms', hdescribed⟩ := Writes.apply_map ws c ms
          have hin := hdescribed.alike.find (show "in" ≠ "description" by decide)
          have hcons : ∀ (ms : Members) (vs : List Value),
              Value.mappings (.map c ms :: vs) = ms :: Value.mappings vs := fun _ _ => rfl
          rw [List.map_cons, hms', hcons, hcons, queryParameters, queryParameters, List.filter_cons,
            List.filter_cons, hin, Writes.isStr_apply]
          cases hquery : (Members.find ms "in").isStr "query" with
          | true =>
              -- What is taken in the query is not written to.
              have hsame := hspare.apply (v := .map c ms)
                (List.mem_filter.2 ⟨List.mem_cons_self, hquery⟩)
              cases hms'.symm.trans hsame
              exact congrArg (ms :: ·) hrest
          | false => exact hrest
      | list items =>
          rw [List.map_cons, Writes.apply_list]
          exact hrest
      | _ =>
          rw [List.map_cons, Writes.apply_scalar (by simp) (by simp)]
          exact hrest

theorem queryModel_of_spare (halike : ws.Alike definition definition')
    (hspare : ws.Spare (queryValues definition)) :
    queryModel definition' operationId = queryModel definition operationId := by
  unfold queryModel
  rw [halike.find (by decide), Value.mappingsIfAny_eq, Value.mappingsIfAny_eq]
  cases hparameters : Members.find definition "parameters" with
  | list items =>
      unfold queryValues at hspare
      rw [hparameters] at hspare
      have hparameters' := queryParameters_of_spare hspare
      rw [Writes.apply_list]
      simp [Value.lacksItems, Value.mappingsOrNil, Bind.bind, Except.bind, hparameters']
  | map c ms =>
      obtain ⟨ms', hms', -⟩ := Writes.apply_map ws c ms
      rw [hms']
      rfl
  | _ => rw [Writes.apply_scalar (by simp) (by simp)]

theorem formModel_of_spare (halike : ws.Alike definition definition')
    (hspare : ws.Spare [Members.find (contentOf definition) Definition.formMediaType,
      Members.find (contentOf definition) Definition.multipartMediaType]) :
    formModel definition' operationId = formModel definition operationId := by
  unfold formModel
  rw [inlineForm_of_spare halike hspare]

/-- What is written is the description of the form, and it has a place only if it is missing. -/
theorem mem_writtenCell {form : Option Model} {writes : Writes}
    (hid : (Members.find definition "operationId").isTruthy = true)
    (h : formModel definition operationId = .ok (form, writes)) :
    ∀ w ∈ writes, w.1 ∈ writtenCell definition := by
  cases isFormModel_of_formModel h with
  | none _ => simp
  | described _ _ _ _ => simp
  | undescribed hform _ _ hnone _ =>
      intro w hw
      obtain ⟨cell, hcell, rfl⟩ := List.mem_map.1 hw
      unfold writtenCell
      simp only [hform, hid, hnone, Bool.not_false, Bool.and_self, if_true]
      exact Option.mem_toList.1 hcell

/-- The models of one operation as its definition stands, and after them those of others, which
may write to what these keep. -/
def modelsThen (definition : Members) (next : Writes → Except Failure (List Model × Writes)) :
    Except Failure (List Model × Writes) :=
  if (Members.find definition "operationId").isTruthy then do
    let (form, writes) ← formModel definition (Members.find definition "operationId")
    let query ← queryModel definition (Members.find definition "operationId")
    let (others, later) ← next writes
    return (later.settle (form.toList ++ query.toList) ++ others, writes ++ later)
  else next []

theorem modelsThen_eq_ok {next : Writes → Except Failure (List Model × Writes)} {later : Writes}
    (h : modelsThen definition next = .ok (models, later)) :
    ((Members.find definition "operationId").isTruthy = false ∧ next [] = .ok (models, later)) ∨
    ((Members.find definition "operationId").isTruthy = true ∧ ∃ form writes query others after,
      formModel definition (Members.find definition "operationId") = .ok (form, writes) ∧
      queryModel definition (Members.find definition "operationId") = .ok query ∧
      next writes = .ok (others, after) ∧
      models = Writes.settle after (form.toList ++ query.toList) ++ others ∧
      later = writes ++ after) := by
  unfold modelsThen at h
  split at h
  · next htruthy =>
      obtain ⟨⟨form, writes⟩, hform, h⟩ := bind_eq_ok.1 h
      obtain ⟨query, hquery, h⟩ := bind_eq_ok.1 h
      obtain ⟨⟨others, after⟩, hothers, hend⟩ := bind_eq_ok.1 h
      cases hend
      exact Or.inr ⟨htruthy, form, writes, query, others, after, hform, hquery, hothers, rfl, rfl⟩
  · next hfalsy => exact Or.inl ⟨Bool.eq_false_iff.2 hfalsy, h⟩

/-- What an operation keeps is not written to, so its models stay as they were made. -/
theorem settle_of_kept {form query : Option Model} {writes later : Writes}
    (hid : (Members.find definition "operationId").isTruthy = true)
    (hform : formModel definition operationId = .ok (form, writes))
    (hquery : queryModel definition operationId = .ok query)
    (hkept : ∀ w ∈ later, ∀ v, KeptBy definition v → v.holds w.1 = false) :
    later.settle (form.toList ++ query.toList) = form.toList ++ query.toList := by
  refine Writes.settle_of_fixed fun m hm f hf v hfree => Writes.apply_of_not_holds fun w hw =>
    hkept w hw v ?_
  rcases List.mem_append.1 hm with hmem | hmem
  · rw [Option.mem_toList.1 hmem] at hform
    exact keptBy_of_formModel hid hform hf hfree
  · rw [Option.mem_toList.1 hmem] at hquery
    exact keptBy_of_queryModel hid hquery hf hfree

theorem result_operationModels_cons {c : Option Nat} (hmap : s.definition = .map c definition)
    (hspare : ws.Spare (readings definition))
    (hown : ∀ cell ∈ writtenCell definition, ∀ v ∈ queryValues definition, v.holds cell = false) :
    (operationModels ws (s :: rest)).result =
      modelsThen definition fun writes => (operationModels (ws ++ writes) rest).result := by
  obtain ⟨definition', hdefinition', hdescribed⟩ := Writes.apply_map ws c definition
  have halike := hdescribed.alike
  have hid : Members.find definition' "operationId" = Members.find definition "operationId" := by
    rw [halike.find (by decide)]
    exact hspare.apply List.mem_cons_self
  rw [operationModels, hmap, hdefinition', Logged.result_bind]
  show (if (Members.find definition' "operationId").isTruthy then _ else _ : Logged _).result = _
  rw [hid, modelsThen]
  cases htruthy : (Members.find definition "operationId").isTruthy with
  | false =>
      rw [if_neg Bool.false_ne_true, if_neg Bool.false_ne_true, List.append_nil, Logged.result_bind]
      rfl
  | true =>
      rw [readings, htruthy, if_pos rfl] at hspare
      rw [if_pos rfl, if_pos rfl, Logged.result_bind]
      show (formModel definition' _ >>= _) >>= _ = _
      have hforms : ws.Spare [Members.find (contentOf definition) Definition.formMediaType,
          Members.find (contentOf definition) Definition.multipartMediaType] :=
        hspare.mono (by simp)
      have hqueries : ws.Spare (queryValues definition) :=
        hspare.mono fun v hv => by simp [hv]
      rw [formModel_of_spare halike hforms]
      cases hform : formModel definition (Members.find definition "operationId") with
      | error e => rfl
      | ok made =>
          obtain ⟨form, writes⟩ := made
          have hwritten : Writes.Spare writes (queryValues definition) := fun w hw =>
            hown w.1 (mem_writtenCell htruthy hform w hw)
          obtain ⟨described, happly, hdescribed⟩ := Writes.apply_map (ws ++ writes) c definition
          rw [Writes.apply_append, hdefinition'] at happly
          show (Value.members (Writes.apply writes (.map c definition')) >>= _) >>= _ = _
          rw [happly]
          show (queryModel described _ >>= _) >>= _ = queryModel definition _ >>= _
          rw [queryModel_of_spare hdescribed.alike (hqueries.append hwritten)]
          cases queryModel definition (Members.find definition "operationId") with
          | error e => rfl
          | ok query => exact Logged.result_bind _ _

/-! ## What a run reads -/

theorem contentOf_unshared (definition : Members) :
    contentOf (unsharedMembers definition) = unsharedMembers (contentOf definition) := by
  unfold contentOf
  simp only [Members.find_unshared, Value.membersOrNil_unshared]

/-- Nothing is written where nothing is shared. -/
theorem writtenCell_unshared (definition : Members) :
    writtenCell (unsharedMembers definition) = none := by
  unfold writtenCell
  split
  · next c schema hwritten =>
      obtain ⟨hschema, -⟩ := writtenForm_eq_some.1 hwritten
      rw [contentOf_unshared, formMedia_unshared, Value.membersOrNil_unshared,
        Members.find_unshared] at hschema
      cases hplain : Members.find (formMedia (contentOf definition)).membersOrNil "schema" with
      | map c' schema' =>
          rw [hplain] at hschema
          cases hschema
          split <;> rfl
      | _ => rw [hplain] at hschema; cases hschema
  · rfl

/-- Models without what was written for them, as they are where nothing is shared. -/
def unwritten (made : List Model × Writes) : List Model × Writes := (made.1.map Model.unshared, [])

theorem modelsThen_unshared {next next' : Writes → Except Failure (List Model × Writes)}
    (h : ∀ writes : Writes, (∀ w ∈ writes, w.1 ∈ writtenCell definition) →
      next' [] = (next writes).map unwritten)
    (hkept : ∀ writes : Writes, (∀ w ∈ writes, w.1 ∈ writtenCell definition) →
      ∀ others later, next writes = .ok (others, later) →
        ∀ w ∈ later, ∀ v, KeptBy definition v → v.holds w.1 = false) :
    modelsThen (unsharedMembers definition) next' = (modelsThen definition next).map unwritten := by
  unfold modelsThen
  rw [Members.find_unshared, Value.isTruthy_unshared, formModel_unshared, queryModel_unshared]
  cases htruthy : (Members.find definition "operationId").isTruthy with
  | false => exact h [] (by simp)
  | true =>
      rw [if_pos rfl, if_pos rfl]
      cases hform : formModel definition (Members.find definition "operationId") with
      | error e => rfl
      | ok made =>
          obtain ⟨form, writes⟩ := made
          have hwritten := mem_writtenCell htruthy hform
          show (Except.map _ _ >>= _) = _
          cases hquery : queryModel definition (Members.find definition "operationId") with
          | error e => rfl
          | ok query =>
              show (next' [] >>= _) = (next writes >>= _).map _
              rw [h writes hwritten]
              cases hnext : next writes with
              | error e => rfl
              | ok rest =>
                  obtain ⟨others, later⟩ := rest
                  have hsettle := settle_of_kept htruthy hform hquery
                    (hkept writes hwritten others later hnext)
                  show Except.ok (Writes.settle [] _ ++ _, _) =
                    Except.ok (unwritten (later.settle _ ++ _, _))
                  rw [hsettle, Writes.settle_nil]
                  cases form <;> cases query <;> rfl

/-- Whether operations are read one after the other without meeting what was written. -/
inductive ReadApart : Writes → List Site → Prop
  | nil (ws : Writes) : ReadApart ws []
  | cons {ws : Writes} {s : Site} {rest : List Site} {c : Option Nat} {definition : Members}
      (isMap : s.definition = .map c definition) (spare : ws.Spare (readings definition))
      (own : ∀ cell ∈ writtenCell definition, ∀ v ∈ queryValues definition, v.holds cell = false)
      (kept : ∀ t ∈ rest, ∀ cell ∈ writtenCell t.members, ∀ v, KeptBy definition v →
        v.holds cell = false)
      (later : ∀ writes : Writes, (∀ w ∈ writes, w.1 ∈ writtenCell definition) →
        ReadApart (ws ++ writes) rest) :
      ReadApart ws (s :: rest)

theorem WritesApart.readApart {schemas : Members} (hapart : WritesApart schemas sites)
    (hmaps : ∀ s ∈ sites, ∃ c definition, s.definition = .map c definition)
    (hspare : ∀ s ∈ sites, ws.Spare (readings s.members)) : ReadApart ws sites := by
  induction sites generalizing ws with
  | nil => exact .nil ws
  | cons s rest ih =>
      obtain ⟨⟨c, definition, hdefinition⟩, hmapsRest⟩ := List.forall_mem_cons.1 hmaps
      obtain ⟨hown, hownRest⟩ := List.forall_mem_cons.1 hapart.own
      obtain ⟨hlater, hlaterRest⟩ := List.pairwise_cons.1 hapart.later
      obtain ⟨-, hnamedRest⟩ := List.forall_mem_cons.1 hapart.named
      obtain ⟨hkept, hkeptRest⟩ := List.pairwise_cons.1 hapart.kept
      obtain ⟨hspareHere, hspareRest⟩ := List.forall_mem_cons.1 hspare
      have hmembers : s.members = definition := by rw [Site.members, hdefinition]; rfl
      rw [hmembers] at hown hspareHere hlater hkept
      refine .cons hdefinition hspareHere hown hkept fun writes hwrites => ?_
      exact ih ⟨hownRest, hlaterRest, hnamedRest, hkeptRest⟩ hmapsRest fun t ht =>
        (hspareRest t ht).append fun w hw => hlater t ht w.1 (hwrites w hw)

/-- What is written is the description of some form. -/
theorem exists_writtenCell {found : List Model} {writes : Writes} (h : ReadApart ws sites)
    (hfound : (operationModels ws sites).result = .ok (found, writes)) :
    ∀ w ∈ writes, ∃ s ∈ sites, w.1 ∈ writtenCell s.members := by
  induction h generalizing found writes with
  | nil =>
      cases hfound
      simp
  | @cons ws t rest c definition hdefinition hspare hown _ _ ih =>
      have hmembers : t.members = definition := by rw [Site.members, hdefinition]; rfl
      rw [result_operationModels_cons hdefinition hspare hown] at hfound
      rcases modelsThen_eq_ok hfound with
        ⟨-, hfound⟩ | ⟨hid, form, own, query, others, after, hform, -, hothers, -, rfl⟩
      · intro w hw
        obtain ⟨s, hs, hcell⟩ := ih [] (by simp) hfound w hw
        exact ⟨s, List.mem_cons_of_mem _ hs, hcell⟩
      · intro w hw
        rcases List.mem_append.1 hw with hmine | hw
        · exact ⟨t, List.mem_cons_self, hmembers ▸ mem_writtenCell hid hform w hmine⟩
        · obtain ⟨s, hs, hcell⟩ := ih own (mem_writtenCell hid hform) hothers w hw
          exact ⟨s, List.mem_cons_of_mem _ hs, hcell⟩

/-- What an operation keeps is not written to by the operations after it. -/
theorem not_holds_of_kept {found : List Model} {writes : Writes} (h : ReadApart ws rest)
    (hkept : ∀ t ∈ rest, ∀ cell ∈ writtenCell t.members, ∀ v, KeptBy definition v →
      v.holds cell = false)
    (hfound : (operationModels ws rest).result = .ok (found, writes)) :
    ∀ w ∈ writes, ∀ v, KeptBy definition v → v.holds w.1 = false := by
  intro w hw
  obtain ⟨t, ht, hcell⟩ := exists_writtenCell h hfound w hw
  exact hkept t ht w.1 hcell

theorem result_operationModels_unshared (h : ReadApart ws sites) :
    (operationModels [] (sites.map Site.unshared)).result =
      (operationModels ws sites).result.map unwritten := by
  induction h with
  | nil => rfl
  | @cons ws s rest c definition hdefinition hspare hown hkept hlater ih =>
      have hunshared : s.unshared.definition = .map none (unsharedMembers definition) := by
        rw [Site.unshared, hdefinition]
        rfl
      rw [List.map_cons, result_operationModels_cons hdefinition hspare hown,
        result_operationModels_cons hunshared (fun w hw => by cases hw)
          (by rw [writtenCell_unshared]; simp)]
      exact modelsThen_unshared ih fun writes hwrites others later hothers =>
        not_holds_of_kept (hlater writes hwrites) hkept hothers

/-- An operation with an id has its form's model made from its definition as it stands. -/
theorem exists_formModel {found : List Model} {writes : Writes} (h : ReadApart ws sites)
    (hfound : (operationModels ws sites).result = .ok (found, writes)) (hs : s ∈ sites)
    (hid : (Members.find s.members "operationId").isTruthy = true) :
    ∃ form own, formModel s.members (Members.find s.members "operationId") = .ok (form, own) ∧
      ∀ model ∈ form, model ∈ found := by
  induction h generalizing found writes with
  | nil => cases hs
  | @cons ws t rest c definition hdefinition hspare hown hkept hlater ih =>
      have hmembers : t.members = definition := by rw [Site.members, hdefinition]; rfl
      rw [result_operationModels_cons hdefinition hspare hown] at hfound
      rcases modelsThen_eq_ok hfound with
        ⟨hfalsy, hfound⟩ |
        ⟨htruthy, form, own, query, others, after, hform, hquery, hothers, rfl, -⟩
      · rcases List.mem_cons.1 hs with rfl | hs
        · rw [hmembers, hfalsy] at hid
          cases hid
        · exact ih [] (by simp) hfound hs
      · have hwritten := mem_writtenCell htruthy hform
        rcases List.mem_cons.1 hs with rfl | hs
        · rw [hmembers, settle_of_kept htruthy hform hquery
            (not_holds_of_kept (hlater own hwritten) hkept hothers)]
          exact ⟨form, own, hform, fun model hmodel => by simp [Option.mem_def.1 hmodel]⟩
        · obtain ⟨form', own', hform', hmem⟩ := ih own hwritten hothers hs
          exact ⟨form', own', hform', fun model hmodel =>
            List.mem_append_right _ (hmem model hmodel)⟩

/-! ## Documents -/

theorem readApart_of_writesApart (h : WritesApart (schemasIn document) (sitesIn document)) :
    ReadApart [] (sitesIn document) :=
  h.readApart (fun _ hs =>
    let ⟨_, _, c, definition, _, _, hmap⟩ := of_mem_sites hs
    ⟨c, definition, hmap⟩) fun _ _ w hw => by cases hw

theorem namedSchemas_unshared (ms : Members) :
    namedSchemas (unsharedMembers ms) = (namedSchemas ms).map unsharedMembers := by
  refine bind_eq_map (g := unsharedMembers) ?_ fun components => ?_
  · rw [Members.find_unshared, Value.membersIfAny_unshared]
  · rw [Members.find_unshared, Value.membersIfAny_unshared]

/-- What named schemas keep is not written to. -/
theorem settle_named {named found : List Model} {writes : Writes}
    (hapart : WritesApart (schemasIn document) (sitesIn document))
    (hnamed : namedModels (schemasIn document) = .ok named)
    (hfound : (operationModels [] (sitesIn document)).result = .ok (found, writes)) :
    writes.settle named = named := by
  refine Writes.settle_of_fixed fun m hm f hf v hfree => Writes.apply_of_not_holds fun w hw => ?_
  obtain ⟨s, hs, hcell⟩ := exists_writtenCell (readApart_of_writesApart hapart) hfound w hw
  exact hapart.named s hs w.1 hcell v (keptByNamed_of_namedModels hnamed hm hf hfree)

theorem result_models_unshared (hapart : WritesApart (schemasIn document) (sitesIn document)) :
    (Schema.models document.unshared).result =
      (Schema.models document).result.map (List.map Model.unshared) := by
  unfold Schema.models
  simp only [Logged.result_bind, Logged.result_ofExcept]
  cases document with
  | map c ms =>
      show namedSchemas (unsharedMembers ms) >>= _ = (namedSchemas ms >>= _).map _
      rw [namedSchemas_unshared]
      cases hschemas : namedSchemas ms with
      | error e => rfl
      | ok schemas =>
          cases eq_schemasIn (.map c ms) hschemas
          show namedModels (unsharedMembers _) >>= _ = (namedModels _ >>= _).map _
          rw [namedModels_unshared]
          cases hnamed : namedModels (schemasIn (.map c ms)) with
          | error e => rfl
          | ok named =>
              show (Members.find (unsharedMembers ms) "paths").membersIfAny >>= _ =
                ((Members.find ms "paths").membersIfAny >>= _).map _
              rw [Members.find_unshared, Value.membersIfAny_eq, Value.membersIfAny_eq,
                Value.lacksMembers_unshared, Value.membersOrNil_unshared]
              split
              · rfl
              · show (operationModels [] (sites (unsharedMembers _))).result >>= _ =
                  ((operationModels [] (sitesIn (.map c ms))).result >>= _).map _
                rw [sites_unshared]
                show (operationModels [] ((sitesIn (.map c ms)).map Site.unshared)).result >>= _ = _
                rw [result_operationModels_unshared (readApart_of_writesApart hapart)]
                cases hfound : (operationModels [] (sitesIn (.map c ms))).result with
                | error e => rfl
                | ok made =>
                    obtain ⟨found, writes⟩ := made
                    show Except.ok (Writes.settle [] _ ++ _) =
                      Except.ok (List.map _ (writes.settle named ++ _))
                    rw [settle_named hapart hnamed hfound, Writes.settle_nil, List.map_append,
                      List.map_cons]
                    rfl
  | _ => rfl

/-- A form without a description gets one with the id of its operation. -/
theorem description_of_formModel {id : String} {c : Option Nat} {schema : Members}
    {form : Option Model} {writes : Writes}
    (h : formModel definition (.str id) = .ok (form, writes))
    (hform : writtenForm definition = some (c, schema))
    (hnone : (Members.find schema "description").isTruthy = false) :
    ∃ model, form = some model ∧ model.name = Naming.capitalizeFirst id ++ "Request" ∧
      model.description = some ("Request body for operation " ++ id) := by
  cases isFormModel_of_formModel h with
  | none hmissing =>
      rw [hmissing] at hform
      cases hform
  | described hsame _ _ htext =>
      cases hsame.symm.trans hform
      rw [hnone] at htext
      cases htext
  | @undescribed _ _ model _ hname _ _ hdescription =>
      exact ⟨model, rfl, (Except.ok.inj hname).symm, hdescription⟩

/-- Where no description is written to a place that is read afterwards or that was kept before, a
document has the models of the document in which nothing is shared, and fails if that fails. The
model of each form without a description of its own names its own operation. -/
theorem models_ignore_sharing_if_apart
    (hapart : WritesApart (schemasIn document) (sitesIn document)) :
    (Schema.models document.unshared).result =
      (Schema.models document).result.map (List.map Model.unshared) ∧
    ∀ ms, (Schema.models document).result = .ok ms → ∀ s ∈ sitesIn document, ∀ id c schema,
      s.HasId id → writtenForm s.members = some (c, schema) →
      (Members.find schema "description").isTruthy = false →
      ∃ model ∈ ms, model.name = Naming.capitalizeFirst id ++ "Request" ∧
        model.description = some ("Request body for operation " ++ id) := by
  have hread := readApart_of_writesApart hapart
  refine ⟨result_models_unshared hapart, fun ms hms s hs id c schema hid hform hnone => ?_⟩
  obtain ⟨named, found, writes, -, hfound, rfl⟩ := models_parts hms
  have htruthy : (Members.find s.members "operationId").isTruthy = true := by
    rw [hid.found]
    exact bne_iff_ne.2 hid.ne_empty
  obtain ⟨form, own, hmade, hmem⟩ := exists_formModel hread hfound hs htruthy
  rw [hid.found] at hmade
  obtain ⟨model, hmodel, hname, hdescription⟩ := description_of_formModel hmade hform hnone
  exact ⟨model, List.mem_append_right _ (List.mem_cons_of_mem _ (hmem model hmodel)), hname,
    hdescription⟩

/-! ## One schema in two places -/

/-- The model of a form. -/
def requestModel (id description : String) (fields : List Field) : Model :=
  ⟨Naming.capitalizeFirst id ++ "Request", some description, fields⟩

theorem formModel_of_described {id text : String} {c : Option Nat} {schema : Members}
    {fields : List Field} (hform : inlineForm definition = .ok (some (c, schema)))
    (hfields : fieldsIn schema = .ok fields)
    (hdescription : Members.find schema "description" = .str text) (htext : text ≠ "") :
    formModel definition (.str id) = .ok (some (requestModel id text fields), []) := by
  have hmodel : toModel (.str (Naming.capitalizeFirst id ++ "Request")) (.ofMembers schema) =
      .ok (requestModel id text fields) := toModel_eq hfields (by rw [hdescription]; rfl) _
  have htruthy : (Value.str text).isTruthy = true := bne_iff_ne.2 htext
  refine bind_eq_ok.2 ⟨_, hform, bind_eq_ok.2 ⟨_, rfl, ?_⟩⟩
  rw [hdescription, if_pos htruthy]
  exact bind_eq_ok.2 ⟨_, hmodel, rfl⟩

theorem formModel_of_undescribed {id : String} {c : Option Nat} {schema : Members}
    {fields : List Field} (hform : inlineForm definition = .ok (some (c, schema)))
    (hfields : fieldsIn schema = .ok fields)
    (hnone : (Members.find schema "description").isTruthy = false) :
    formModel definition (.str id) =
      .ok (some (requestModel id (formDescription (.str id)) fields),
        c.toList.map fun c => (c, formDescription (.str id))) := by
  have hset : fieldsIn (Members.set schema "description" (.str (formDescription (.str id)))) =
      .ok fields := (fieldsIn_set _ (by decide) (by decide)).trans hfields
  have hmodel : toModel (.str (Naming.capitalizeFirst id ++ "Request"))
      (.ofMembers (Members.set schema "description" (.str (formDescription (.str id))))) =
        .ok (requestModel id (formDescription (.str id)) fields) :=
    toModel_eq hset (by rw [Members.find, Members.find?_set_self]; rfl) _
  refine bind_eq_ok.2 ⟨_, hform, bind_eq_ok.2 ⟨_, rfl, ?_⟩⟩
  rw [hnone, if_neg Bool.false_ne_true]
  exact bind_eq_ok.2 ⟨_, hmodel, rfl⟩

def noteMembers : Members :=
  [(.str "properties", .ofMembers [(.str "text", .ofMembers [(.str "type", .str "string")])])]

def textField : Field :=
  ⟨some "text", some "string", none, none, none, none, none, none, none, none, none, none⟩

theorem fieldsIn_note : fieldsIn noteMembers = .ok [textField] := by
  cbv

/-- The definition of an operation that is sent a form. -/
def sending (id : String) (schema : Value) : Members :=
  [(.str "operationId", .str id),
    (.str "requestBody", .ofMembers [(.str "content", .ofMembers
      [(.str "multipart/form-data", .ofMembers [(.str "schema", schema)])])])]

/-- Two operations that are sent notes, each schema with its place. -/
def notesDocument (schemas : Members) (first second : Option Nat) : Value :=
  .ofMembers [(.str "components", .ofMembers [(.str "schemas", .ofMembers schemas)]),
    (.str "paths", .ofMembers
      [(.str "/a", .ofMembers
          [(.str "post", .ofMembers (sending "first" (.map first noteMembers)))]),
       (.str "/b", .ofMembers
          [(.str "post", .ofMembers (sending "second" (.map second noteMembers)))])])]

theorem inlineForm_sending {id : String} {c : Option Nat} {schema : Members}
    (h : Members.has schema (.str "properties") = true) :
    inlineForm (sending id (.map c schema)) = .ok (some (c, schema)) := by
  show Except.ok (if Members.has schema (.str "properties") then some (c, schema) else none) = _
  rw [if_pos h]

/-- An operation that is sent a form and nothing else has one model. -/
theorem result_sending_cons {id : String} {schema : Value} {model : Model} {writes : Writes}
    (happly : ws.apply s.definition = .ofMembers (sending id schema)) (hid : id ≠ "")
    (hform : formModel (sending id schema) (.str id) = .ok (some model, writes)) :
    (operationModels ws (s :: rest)).result =
      (operationModels (ws ++ writes) rest).result >>= fun made =>
        .ok (made.2.settle [model] ++ made.1, writes ++ made.2) := by
  have hmodels : modelsOf (.ofMembers (sending id schema)) (.str id) = .ok ([model], writes) := by
    obtain ⟨described, happlied, halike⟩ := Writes.apply_map writes none (sending id schema)
    have hdescribed : writes.apply (.ofMembers (sending id schema)) = .ofMembers described :=
      happlied
    have hquery : queryModel described (.str id) = .ok none :=
      queryModel_of_spare halike.alike fun w _ v hv => by cases hv
    refine bind_eq_ok.2 ⟨_, rfl, bind_eq_ok.2 ⟨_, hform, ?_⟩⟩
    simp only [hdescribed]
    exact bind_eq_ok.2 ⟨_, rfl, bind_eq_ok.2 ⟨_, hquery, rfl⟩⟩
  exact result_operationModels_of_id happly (bne_iff_ne.2 hid) hmodels

theorem formModel_sending (id : String) (cell : Option Nat) :
    formModel (sending id (.map cell noteMembers)) (.str id) =
      .ok (some (requestModel id (formDescription (.str id)) [textField]),
        cell.toList.map fun c => (c, formDescription (.str id))) :=
  formModel_of_undescribed (inlineForm_sending rfl) fieldsIn_note rfl

/-- The models of two forms, the second with some description. -/
def noteRequests (description : String) : List Model :=
  [requestModel "first" (formDescription (.str "first")) [textField],
    requestModel "second" description [textField]]

theorem result_models_notes {schemas : Members} {first second : Option Nat} {description : String}
    {named : List Model} {writes : Writes} (hnamed : namedModels schemas = .ok named)
    (hfound : (operationModels [] (sitesIn (notesDocument schemas first second))).result =
      .ok (noteRequests description, writes)) :
    (Schema.models (notesDocument schemas first second)).result =
      .ok (writes.settle named ++ .attachment :: noteRequests description) := by
  have hschemas : namedSchemas (notesDocument schemas first second).membersOrNil = .ok schemas :=
    Value.membersIfAny_map none schemas
  exact result_models_of_parts hschemas hnamed rfl hfound

/-- Forms that do not share their schema are described by their own operations. -/
theorem result_notes_apart (schemas : Members) (first second : Option Nat)
    (happly : Writes.apply (first.toList.map fun c => (c, formDescription (.str "first")))
        (.ofMembers (sending "second" (.map second noteMembers))) =
      .ofMembers (sending "second" (.map second noteMembers))) :
    ∃ writes, (operationModels [] (sitesIn (notesDocument schemas first second))).result =
      .ok (noteRequests (formDescription (.str "second")), writes) := by
  show ∃ _, (operationModels [] [⟨.str "/a", "post", _⟩, ⟨.str "/b", "post", _⟩]).result = _
  rw [result_sending_cons rfl (by decide) (formModel_sending "first" first),
    result_sending_cons happly (by decide) (formModel_sending "second" second)]
  exact ⟨_, rfl⟩

/-- A form that was described before keeps that description. -/
theorem result_notes_shared (schemas : Members) :
    (operationModels [] (sitesIn (notesDocument schemas (some 0) (some 0)))).result =
      .ok (noteRequests (formDescription (.str "first")), [(0, formDescription (.str "first"))]) := by
  have hfields : fieldsIn (Members.set noteMembers "description"
      (.str (formDescription (.str "first")))) = .ok [textField] :=
    (fieldsIn_set _ (by decide) (by decide)).trans fieldsIn_note
  have hsecond : formModel (sending "second" (.map (some 0) (Members.set noteMembers "description"
      (.str (formDescription (.str "first")))))) (.str "second") =
        .ok (some (requestModel "second" (formDescription (.str "first")) [textField]), []) :=
    formModel_of_described (inlineForm_sending rfl) hfields rfl (by decide +kernel)
  show (operationModels [] [⟨.str "/a", "post", _⟩, ⟨.str "/b", "post", _⟩]).result = _
  rw [result_sending_cons rfl (by decide) (formModel_sending "first" (some 0)),
    result_sending_cons rfl (by decide) hsecond]
  rfl

/-- Two operations are sent one form. The second model names the first operation, and where nothing
is shared it names its own. -/
theorem second_form_named_after_first :
    (Schema.models (notesDocument [] (some 0) (some 0))).result =
      .ok (.attachment :: noteRequests (formDescription (.str "first"))) ∧
    (Schema.models (notesDocument [] (some 0) (some 0)).unshared).result ≠
      (Schema.models (notesDocument [] (some 0) (some 0))).result.map
        (List.map Model.unshared) := by
  have hnone : namedModels [] = .ok [] := rfl
  obtain ⟨_, hfoundApart⟩ := result_notes_apart [] none none rfl
  have hshared := result_models_notes hnone (result_notes_shared [])
  have happart := result_models_notes hnone hfoundApart
  refine ⟨hshared, ?_⟩
  rw [hshared]
  intro h
  have hsame := Except.ok.inj (happart.symm.trans h)
  have hdescription : formDescription (.str "second") = formDescription (.str "first") := by
    have hlast := congrArg (fun ms : List Model => ms.map Model.description) hsame
    simpa [noteRequests, requestModel, Model.unshared] using hlast
  exact absurd hdescription (by decide +kernel)

/-- A named schema one of whose properties has some value for its example. -/
def sampleSchemas (v : Value) : Members :=
  [(.str "Note", .ofMembers [(.str "properties", .ofMembers
    [(.str "text", .ofMembers [(.str "example", v)])])])]

/-- The field of that property. -/
def sampleField (v : Value) : Field :=
  ⟨some "text", none, none, none, none, some v, none, none, none, none, none, none⟩

/-- A form that is the example of a property as well is described there, too, after the field has
been made. -/
example : (Schema.models (notesDocument (sampleSchemas (.map (some 0) noteMembers)) (some 0)
      (some 0))).result =
    .ok (⟨"Note", none, [sampleField (.map (some 0)
        (Members.set noteMembers "description" (.str (formDescription (.str "first")))))]⟩ ::
      .attachment :: noteRequests (formDescription (.str "first"))) := by
  have hnamed : namedModels (sampleSchemas (.map (some 0) noteMembers)) =
      .ok [⟨"Note", none, [sampleField (.map (some 0) noteMembers)]⟩] := by
    cbv
  exact (result_models_notes hnamed (result_notes_shared _)).trans rfl

/-- A named schema that is a form as well. -/
def namedNotes : Members := [(.str "Note", .map (some 0) noteMembers)]

/-- The property of a note keeps nothing. -/
theorem not_keptIn_note {v : Value} : ¬KeptIn noteMembers v := by
  rintro ⟨k, property, hproperty, hkept⟩
  have hmem : (k, property) ∈ [(.str "text", Value.ofMembers [(.str "type", .str "string")])] :=
    hproperty
  cases List.mem_singleton.1 hmem
  cases hkept with
  | choice hchoices _ => cases hchoices
  | sample hsample => cases hsample
  | default hdefault => cases hdefault
  | elements hitems _ => cases hitems

theorem not_keptBy_sending {id : String} {c : Option Nat} {v : Value} :
    ¬KeptBy (sending id (.map c noteMembers)) v := by
  rintro (⟨-, hform, hkept⟩ | ⟨-, hquery, -⟩)
  · cases (inlineForm_ok (inlineForm_sending rfl)).trans hform
    exact not_keptIn_note hkept
  · cases hquery

/-- The place of the first form is not in the definition of the second operation. -/
theorem writesApart_notes :
    WritesApart namedNotes (sitesIn (notesDocument namedNotes (some 0) (some 1))) := by
  have hsites : sitesIn (notesDocument namedNotes (some 0) (some 1)) =
      [⟨.str "/a", "post", .ofMembers (sending "first" (.map (some 0) noteMembers))⟩,
        ⟨.str "/b", "post", .ofMembers (sending "second" (.map (some 1) noteMembers))⟩] := rfl
  have hcell : writtenCell (sending "first" (.map (some 0) noteMembers)) = some 0 := by
    decide +kernel
  have hreadings : ∀ v ∈ readings (sending "second" (.map (some 1) noteMembers)),
      v.holds 0 = false := by
    decide +kernel
  rw [hsites]
  refine ⟨fun s hs cell hcell v hv => ?_, List.pairwise_pair.2 fun cell hmem v hv => ?_,
    fun s hs cell hcell v hv => ?_,
    List.pairwise_pair.2 fun cell hmem v hv => absurd hv not_keptBy_sending⟩
  · rcases List.mem_cons.1 hs with rfl | hs
    · cases hv
    · cases List.mem_singleton.1 hs
      cases hv
  · cases Option.mem_def.1 (hcell ▸ hmem)
    exact hreadings v hv
  · obtain ⟨k, c, schema, hschema, hkept⟩ := hv
    cases List.mem_singleton.1 (show (k, Value.map c schema) ∈ [(_, _)] from hschema)
    exact absurd hkept not_keptIn_note

theorem models_ignore_sharing_if_apart_of_notes :
    WritesApart (schemasIn (notesDocument namedNotes (some 0) (some 1)))
      (sitesIn (notesDocument namedNotes (some 0) (some 1))) ∧
    (Schema.models (notesDocument namedNotes (some 0) (some 1)).unshared).result =
      .ok (⟨"Note", none, [textField]⟩ :: .attachment ::
        noteRequests (formDescription (.str "second"))) := by
  have hnamed : namedModels namedNotes = .ok [⟨"Note", none, [textField]⟩] := by
    cbv
  obtain ⟨_, hfound⟩ := result_notes_apart namedNotes (some 0) (some 1) rfl
  have hmodels := result_models_notes hnamed hfound
  have hschemas : schemasIn (notesDocument namedNotes (some 0) (some 1)) = namedNotes := rfl
  have hapart := writesApart_notes
  rw [← hschemas] at hapart
  obtain ⟨hsame, -⟩ := models_ignore_sharing_if_apart hapart
  rw [hmodels] at hsame
  exact ⟨hapart, hsame⟩

end ApiOutline.Schema
