import ApiOutline.Proofs.Tree.Roles

/-!
# Whose roles are replaced

A role is meant to be replaced on the operations of a collection, next to
those of its items. The merge does not look where an operation is from: an
item gives new roles to whatever stands at its segments. So the operations of
an item get them too, if another item with the same segments comes later and
has the same method for a key.

That this is the only way is `mem_operationsAt_run`, which follows an
operation back from the table to the visit that found it: at most once on the
way its role was replaced, and then by an item visited after it. Nothing is
assumed about the methods there. Where no method is asked for twice, each
item's operation that is repeated later does get a new role.
-/

namespace ApiOutline.Tree

variable {c : Conventions} {v : Visit} {nodes : List Node} {s : List String}

/-! ## What becomes of an operation -/

/-- What an operation at some segments may become when some visits follow. An item among them that
has its role for a method may replace it. -/
inductive Becomes (later : List Visit) (s : List String) (op : Operation) : Operation → Prop
  | kept : Becomes later s op op
  | replaced {role : String} (hrole : collectionRoles.lookup op.role = some role)
      (hrepeats : (later.any fun v => v.repeats s op.role) = true) :
      Becomes later s op { op with role := role }

theorem Becomes.cons {rest : List Visit} {old mid new : Operation} (h : Becomes [v] s old mid)
    (h' : Becomes rest s mid new) : Becomes (v :: rest) s old new := by
  cases h with
  | kept =>
      cases h' with
      | kept => exact Becomes.kept
      | replaced hrole hrepeats =>
          refine Becomes.replaced hrole ?_
          rw [List.any_cons, hrepeats, Bool.or_true]
  | replaced hrole hrepeats =>
      cases h' with
      | kept =>
          refine Becomes.replaced hrole ?_
          rw [List.any_cons, List.any_nil, Bool.or_false] at hrepeats
          rw [List.any_cons, hrepeats, Bool.true_or]
      | replaced hrole' _ =>
          -- A role given by the merge is no method, so it is not replaced again.
          rw [lookup_of_lookup_collectionRoles hrole] at hrole'
          cases hrole'

theorem mem_relabel {pending : List (String × String)} {ops : List Operation} {op : Operation}
    (h : op ∈ relabel pending ops) :
    ∃ old ∈ ops, op = old ∨
      ∃ role, pending.lookup old.role = some role ∧ op = { old with role := role } := by
  induction ops generalizing pending with
  | nil => cases h
  | cons first rest ih =>
      rw [relabel] at h
      split at h
      · rcases List.mem_cons.1 h with rfl | hmem
        · exact ⟨op, List.mem_cons_self, Or.inl rfl⟩
        · obtain ⟨old, hold, hop⟩ := ih hmem
          exact ⟨old, List.mem_cons_of_mem _ hold, hop⟩
      · next role hsome =>
          rcases List.mem_cons.1 h with rfl | hmem
          · exact ⟨first, List.mem_cons_self, Or.inr ⟨role, hsome, rfl⟩⟩
          · obtain ⟨old, hold, hop⟩ := ih hmem
            refine ⟨old, List.mem_cons_of_mem _ hold, hop.imp_right ?_⟩
            rintro ⟨role', hlookup, rfl⟩
            rw [lookup_filter_fst (· != first.role)] at hlookup
            split at hlookup
            · exact ⟨role', hlookup, rfl⟩
            · cases hlookup

theorem Visit.mem_carried {op : Operation} (h : op ∈ v.carried nodes) :
    ∃ old ∈ operationsAt nodes v.segments, Becomes [v] v.segments old op := by
  unfold Visit.carried at h
  split at h
  · next hitem =>
      obtain ⟨old, hold, rfl | ⟨role, hlookup, rfl⟩⟩ := mem_relabel h
      · exact ⟨op, hold, Becomes.kept⟩
      · rw [lookup_pendingRoles] at hlookup
        split at hlookup
        · next hhas =>
            refine ⟨old, hold, Becomes.replaced hlookup ?_⟩
            rw [List.any_cons, List.any_nil, Bool.or_false, Visit.repeats, beq_self_eq_true,
              Bool.true_and, hitem, hhas, Bool.true_and]
        · cases hlookup
  · exact ⟨op, h, Becomes.kept⟩

/-- After a visit, an operation is one that was there or one that the visit has found. -/
theorem mem_operationsAt_revise {op : Operation} (h : op ∈ operationsAt (v.revise c nodes) s) :
    (∃ old ∈ operationsAt nodes s, Becomes [v] s old op) ∨
      v.segments = s ∧ op ∈ v.operations c := by
  by_cases hs : v.segments = s
  · subst hs
    rw [Visit.operationsAt_revise_self] at h
    rcases List.mem_append.1 h with hcarried | hadded
    · exact Or.inl (Visit.mem_carried hcarried)
    · exact Or.inr ⟨rfl, mem_operations_of_mem_added hadded⟩
  · rw [Visit.operationsAt_revise_of_ne hs] at h
    exact Or.inl ⟨op, h, Becomes.kept⟩

/-- After a run, an operation has become of one that was there or of one that a visit has found. -/
theorem mem_operationsAt_run {vs : List Visit} {op : Operation}
    (h : op ∈ operationsAt (run c vs nodes) s) :
    (∃ old ∈ operationsAt nodes s, Becomes vs s old op) ∨
      ∃ x ∈ extractions c vs, x.visit.segments = s ∧ Becomes x.later s x.operation op := by
  induction vs generalizing nodes with
  | nil => exact Or.inl ⟨op, h, Becomes.kept⟩
  | cons v rest ih =>
      have hrun : run c (v :: rest) nodes = run c rest (v.revise c nodes) := rfl
      rw [hrun] at h
      rw [extractions]
      rcases ih h with ⟨mid, hmid, hnew⟩ | ⟨x, hx, hnew⟩
      · rcases mem_operationsAt_revise hmid with ⟨old, hold, hbecomes⟩ | ⟨hs, hfound⟩
        · exact Or.inl ⟨old, hold, hbecomes.cons hnew⟩
        · refine Or.inr ⟨⟨v, rest, mid⟩, List.mem_append_left _ ?_, hs, hnew⟩
          exact List.mem_map_of_mem hfound
      · exact Or.inr ⟨x, List.mem_append_right _ hx, hnew⟩

/-! ## The operations of items -/

theorem operation_mem_of_mem_extractions {vs : List Visit} {x : Extraction}
    (h : x ∈ extractions c vs) : x.operation ∈ x.visit.operations c := by
  induction vs with
  | nil => cases h
  | cons v rest ih =>
      rw [extractions] at h
      rcases List.mem_append.1 h with hv | hrest
      · obtain ⟨op, hop, rfl⟩ := List.mem_map.1 hv
        exact hop
      · exact ih hrest

theorem Visit.withParameter_eq_isItem {op : Operation} (h : op ∈ v.operations c) :
    op.withParameter = v.isItem := by
  obtain ⟨_, _, hop⟩ := List.mem_filterMap.1 h
  exact (Visit.isRecordOf_of_operation? hop).withParameter_eq

/-- An item adds all that it finds. -/
theorem Visit.added_of_isItem (hitem : v.isItem = true) : v.added c nodes = v.operations c := by
  rw [added, appends, hitem, Bool.not_true, Bool.false_and, taken_false]

theorem mem_additions_of_isItem {vs : List Visit} {x : Extraction} (h : x ∈ extractions c vs)
    (hitem : x.visit.isItem = true) : x ∈ additions c vs nodes := by
  induction vs generalizing nodes with
  | nil => cases h
  | cons v rest ih =>
      rw [extractions] at h
      rw [additions]
      rcases List.mem_append.1 h with hv | hrest
      · obtain ⟨op, hop, rfl⟩ := List.mem_map.1 hv
        refine List.mem_append_left _ (List.mem_map.2 ⟨op, ?_, rfl⟩)
        rw [Visit.added_of_isItem hitem]
        exact hop
      · exact List.mem_append_right _ (ih hrest)

/-- Whether an operation is from an item and has a role to be replaced that another item with the
same segments repeats later. -/
def Extraction.isRepeated (x : Extraction) : Bool :=
  x.visit.isItem && (collectionRoles.lookup x.operation.method).isSome &&
    x.later.any fun v => v.repeats x.visit.segments x.operation.method

theorem Extraction.isItem_of_isRepeated {x : Extraction} (h : x.isRepeated = true) :
    x.visit.isItem = true := by
  unfold isRepeated at h
  rw [Bool.and_eq_true, Bool.and_eq_true] at h
  exact h.1.1

/-- What a repeated operation ends as has another role than its method. -/
theorem Extraction.role_final_ne {x : Extraction} (h : x.isRepeated = true) :
    x.final.role ≠ x.final.method := by
  unfold isRepeated at h
  rw [Bool.and_eq_true, Bool.and_eq_true] at h
  obtain ⟨⟨-, hsome⟩, hlater⟩ := h
  obtain ⟨role, hrole⟩ := Option.isSome_iff_exists.1 hsome
  have hfinal : x.final.role = role := by
    rw [final, roleAfter, if_pos hlater, hrole, Option.getD_some]
  intro heq
  have hmethod : role = x.operation.method := hfinal.symm.trans heq
  have hnone := lookup_of_lookup_collectionRoles hrole
  rw [hmethod, hrole] at hnone
  cases hnone

/-- If nothing is repeated, what has another role than its method is from a bare template. -/
theorem withParameter_eq_false_of_role_ne {vs : List Visit} {op : Operation}
    (hnone : ∀ x ∈ extractions c vs, x.isRepeated = false)
    (h : op ∈ operationsAt (run c vs []) s) (hne : op.role ≠ op.method) :
    op.withParameter = false := by
  rcases mem_operationsAt_run h with ⟨old, hold, -⟩ | ⟨x, hx, hs, hbecomes⟩
  · cases hold
  · have hfound := operation_mem_of_mem_extractions hx
    have hrole := Visit.role_eq_method hfound
    cases hbecomes with
    | kept => exact absurd hrole hne
    | replaced hlookup hrepeats =>
        have hfalse := hnone x hx
        unfold Extraction.isRepeated at hfalse
        rw [hs, ← hrole, hlookup, hrepeats, Option.isSome_some, Bool.and_true,
          Bool.and_true] at hfalse
        exact (Visit.withParameter_eq_isItem hfound).trans hfalse

/-- What an item finds is there at the end, in its last role. -/
theorem final_mem_operationsAt_run {vs : List Visit} {x : Extraction} (hm : c.methods.Nodup)
    (hx : x ∈ extractions c vs) (hitem : x.visit.isItem = true) :
    x.final ∈ operationsAt (run c vs []) x.visit.segments := by
  have hadded : x ∈ additions c vs [] := mem_additions_of_isItem hx hitem
  have hnil : ∀ s, Singular (operationsAt [] s) := fun _ => singular_nil
  rw [operationsAt_run hm hnil]
  refine List.mem_append_right _ (List.mem_map_of_mem (List.mem_filter.2 ⟨hadded, ?_⟩))
  exact beq_self_eq_true _

/-- Where no item has a method that another one with the same segments repeats later, only
operations of bare templates have roles that are not their methods. Where one has, and no method is
asked for twice, its operation has such a role. -/
theorem roles_of_items_are_methods_unless_repeated {c : Conventions} {paths : Members}
    {nodes : List Node} (h : (merge c paths).result = .ok nodes) :
    ((∀ x ∈ extractions c (visits c (ordered paths)), x.isRepeated = false) →
      ∀ n ∈ nodes, ∀ op ∈ n.operations, op.role ≠ op.method → op.withParameter = false) ∧
    (c.methods.Nodup → ∀ x ∈ extractions c (visits c (ordered paths)), x.isRepeated = true →
      ∃ n ∈ nodes, ∃ op ∈ n.operations, op.asExtracted = x.operation ∧ op.role ≠ op.method ∧
        op.withParameter = true) := by
  obtain ⟨-, hrun, -⟩ := merge_ok h
  have hkeyed := (isTable_merge h).keyed
  refine ⟨fun hnone n hn op hop hne => ?_, fun hm x hx hrepeated => ?_⟩
  · rw [← operationsAt_of_mem hkeyed hn, hrun] at hop
    exact withParameter_eq_false_of_role_ne hnone hop hne
  · have hitem := x.isItem_of_isRepeated hrepeated
    have hfound := operation_mem_of_mem_extractions hx
    have hfinal := final_mem_operationsAt_run hm hx hitem
    rw [← hrun] at hfinal
    obtain ⟨n, hn, -, hops, -⟩ := exists_node_of_mem_operationsAt hkeyed hfinal
    exact ⟨n, hn, x.final, hops ▸ hfinal, Visit.asExtracted_of_mem hfound,
      x.role_final_ne hrepeated, (Visit.withParameter_eq_isItem hfound).trans hitem⟩

/-! ## Repositories

An owner's repositories are read at the template of an item. So is each of
them, at a template with the same segments. -/

def ownerTemplate : String := "/repos/\x7bowner\x7d"

def repositoryTemplate : String := "/repos/\x7bowner\x7d/\x7brepo\x7d"

def ownerVisit : Visit :=
  ⟨⟨ownerTemplate, ownerTemplate⟩, [(.str "get", shelfDefinition "listOwned")]⟩

def repositoryVisit : Visit :=
  ⟨⟨repositoryTemplate, repositoryTemplate⟩, [(.str "get", shelfDefinition "read")]⟩

def repositoryPaths : Members :=
  [(.str ownerTemplate, .ofMembers ownerVisit.item),
   (.str repositoryTemplate, .ofMembers repositoryVisit.item)]

def repositoryNode : Node where
  segments := ["repos"]
  parameter := some "repo"
  defaultParameter := none
  operations :=
    [shelfOperation ownerTemplate "get" "list" "listOwned",
      shelfOperation repositoryTemplate "get" "get" "read"]
  endpoint := some repositoryTemplate

theorem ordered_repositoryPaths : ordered repositoryPaths = repositoryPaths :=
  List.mergeSort_of_pairwise (by decide +kernel)

theorem ofTemplate_ownerTemplate : Endpoint.ofTemplate Conventions.default.rules ownerTemplate =
    .ok ⟨ownerTemplate, ownerTemplate⟩ := by decide +kernel

theorem ofTemplate_repositoryTemplate :
    Endpoint.ofTemplate Conventions.default.rules repositoryTemplate =
      .ok ⟨repositoryTemplate, repositoryTemplate⟩ := by decide +kernel

theorem result_merge_repositoryPaths :
    (merge .default repositoryPaths).result = .ok [repositoryNode] := by
  rw [merge, if_pos (by decide +kernel), ordered_repositoryPaths, repositoryPaths]
  simp only [addMembers, addMember, ofTemplate_ownerTemplate, ofTemplate_repositoryTemplate]
  rfl

theorem visits_repositoryPaths :
    visits .default repositoryPaths = [ownerVisit, repositoryVisit] := by
  simp only [visits, repositoryPaths, List.filterMap_cons, List.filterMap_nil, Value.ofMembers,
    Visit.ofMember?, ofTemplate_ownerTemplate, ofTemplate_repositoryTemplate]
  rfl

/-- What the visit to the owner's repositories finds. -/
def ownedExtraction : Extraction :=
  ⟨ownerVisit, [repositoryVisit], shelfOperation ownerTemplate "get" "get" "listOwned"⟩

theorem roles_of_items_are_methods_unless_repeated_of_repositories :
    ((merge shelfConventions shelfPaths).result = .ok [shelfNode] ∧
      (∀ x ∈ extractions shelfConventions (visits shelfConventions (ordered shelfPaths)),
        x.isRepeated = false) ∧
      ∀ op ∈ shelfNode.operations, op.role ≠ op.method → op.withParameter = false) ∧
    (merge .default repositoryPaths).result = .ok [repositoryNode] ∧
      ownedExtraction ∈ extractions .default (visits .default (ordered repositoryPaths)) ∧
      ownedExtraction.isRepeated = true ∧
      ∃ n ∈ [repositoryNode], ∃ op ∈ n.operations, op.asExtracted = ownedExtraction.operation ∧
        op.role ≠ op.method ∧ op.withParameter = true := by
  have hnone : ∀ x ∈ extractions shelfConventions (visits shelfConventions (ordered shelfPaths)),
      x.isRepeated = false := by
    rw [ordered_shelfPaths]
    decide +kernel
  have howned : ownedExtraction ∈
      extractions .default (visits .default (ordered repositoryPaths)) := by
    rw [ordered_repositoryPaths, visits_repositoryPaths, extractions]
    have hfound : ownedExtraction.operation ∈ ownerVisit.operations .default :=
      Visit.mem_operations_of_operation? (m := "get") rfl
    exact List.mem_append_left _ (List.mem_map_of_mem hfound)
  have hrepeated : ownedExtraction.isRepeated = true := by decide +kernel
  obtain ⟨hroles, -⟩ := roles_of_items_are_methods_unless_repeated result_merge_shelfPaths
  obtain ⟨-, hreplaced⟩ := roles_of_items_are_methods_unless_repeated result_merge_repositoryPaths
  exact ⟨⟨result_merge_shelfPaths, hnone, hroles hnone shelfNode List.mem_cons_self⟩,
    result_merge_repositoryPaths, howned, hrepeated,
    hreplaced (by decide +kernel) ownedExtraction howned hrepeated⟩

/-- The first operation is from an item, and its role is replaced. -/
theorem role_of_item_replaced :
    (merge .default repositoryPaths).result = .ok [repositoryNode] ∧
    ∃ op ∈ repositoryNode.operations, op.role ≠ op.method ∧ op.withParameter = true :=
  ⟨result_merge_repositoryPaths, shelfOperation ownerTemplate "get" "list" "listOwned",
    List.mem_cons_self, by decide⟩

end ApiOutline.Tree
