import ApiOutline.Proofs.Tree.Locality
import ApiOutline.Proofs.Tree.Relabelling

/-!
# Operations stand where they belong

Nodes are replaced and their operations are carried from one to the next, with
other roles. What a node holds is still told by the path items alone. Each
operation is one that a path item with the node's segments defines, and they
stand in the order in which the path items are visited and their methods are
gone through: a visit adds behind what it carries over, and drops or adds but
does not move (`sublist_operationsAt_run`). To say where an operation comes from
takes two numbers, the place of the path item and that of the method; those of
a node's operations increase (`exists_places`).

A node knows a parameter as soon as there is need for it. Only items bring
operations that take one, and only items give new roles, and the node of an
item is replaced by that of another one at most (`knowsParameter_revise`).
-/

namespace ApiOutline

/-! ## Places in two nested searches -/

section Places

variable {α β γ : Type} {find : α → β → Option γ} {xs : List α} {ms : List β}

/-- What is found for each of some things under each of some keys, with the places of both. -/
def placed (find : α → β → Option γ) (xs : List α) (ms : List β) : List ((Nat × Nat) × γ) :=
  xs.zipIdx.flatMap fun x => ms.zipIdx.filterMap fun m =>
    (find x.1 m.1).map fun found => ((x.2, m.2), found)

theorem mem_placed {i j : Nat} {found : γ} (h : ((i, j), found) ∈ placed find xs ms) :
    ∃ x m, xs[i]? = some x ∧ ms[j]? = some m ∧ find x m = some found := by
  obtain ⟨⟨x, k⟩, hx, h⟩ := List.mem_flatMap.1 h
  obtain ⟨⟨m, l⟩, hm, h⟩ := List.mem_filterMap.1 h
  obtain ⟨_, hfind, heq⟩ := Option.map_eq_some_iff.1 h
  cases heq
  exact ⟨x, m, List.mem_zipIdx_iff_getElem?.1 hx, List.mem_zipIdx_iff_getElem?.1 hm, hfind⟩

theorem map_snd_placed :
    (placed find xs ms).map Prod.snd = xs.flatMap fun x => ms.filterMap (find x) := by
  have hinner : ∀ x : α × Nat, (ms.zipIdx.filterMap fun m =>
      (find x.1 m.1).map fun found => ((x.2, m.2), found)).map Prod.snd =
        ms.filterMap (find x.1) := by
    intro x
    rw [List.map_filterMap, ← List.zipIdx_map_fst 0 ms, List.filterMap_map, List.zipIdx_map_fst]
    refine List.filterMap_congr fun m _ => ?_
    rw [Option.map_map, Function.comp_apply]
    exact Option.map_id'
  rw [placed, List.map_flatMap]
  simp only [hinner]
  rw [← List.flatMap_map Prod.fst fun x => ms.filterMap (find x), List.zipIdx_map_fst]

theorem pairwise_snd_zipIdx (xs : List α) : xs.zipIdx.Pairwise fun a b => a.2 < b.2 := by
  rw [← List.pairwise_map (f := Prod.snd) (R := (· < ·)), List.zipIdx_map_snd]
  exact List.pairwise_lt_range'

theorem pairwise_placed :
    (placed find xs ms).Pairwise fun a b => Prod.Lex (· < ·) (· < ·) a.1 b.1 := by
  rw [placed, List.pairwise_flatMap]
  constructor
  · intro x _
    rw [List.pairwise_filterMap]
    refine (pairwise_snd_zipIdx ms).imp fun {m m'} hlt a ha b hb => ?_
    obtain ⟨_, -, rfl⟩ := Option.map_eq_some_iff.1 ha
    obtain ⟨_, -, rfl⟩ := Option.map_eq_some_iff.1 hb
    exact Prod.Lex.right _ hlt
  · refine (pairwise_snd_zipIdx xs).imp fun {x x'} hlt a ha b hb => ?_
    obtain ⟨_, -, ha⟩ := List.mem_filterMap.1 ha
    obtain ⟨_, -, hb⟩ := List.mem_filterMap.1 hb
    obtain ⟨_, -, rfl⟩ := Option.map_eq_some_iff.1 ha
    obtain ⟨_, -, rfl⟩ := Option.map_eq_some_iff.1 hb
    exact Prod.Lex.left _ _ hlt

/-- What is left of a search has increasing places. -/
theorem exists_places {found : List γ}
    (h : found.Sublist (xs.flatMap fun x => ms.filterMap (find x))) :
    ∃ places : List (Nat × Nat), places.Pairwise (Prod.Lex (· < ·) (· < ·)) ∧
      List.Forall₂ (fun place a => ∃ x m, xs[place.1]? = some x ∧ ms[place.2]? = some m ∧
        find x m = some a) places found := by
  rw [← map_snd_placed, List.sublist_map_iff] at h
  obtain ⟨left, hsub, rfl⟩ := h
  refine ⟨left.map Prod.fst, ?_, ?_⟩
  · rw [List.pairwise_map]
    exact pairwise_placed.sublist hsub
  · rw [List.forall₂_map_left_iff, List.forall₂_map_right_iff, List.forall₂_same]
    exact fun a ha => mem_placed (hsub.subset ha)

end Places

namespace Tree

variable {c : Conventions} {v : Visit} {nodes : List Node} {s : List String}

/-! ## The order of a node's operations -/

/-- What a run leaves at some segments is, with the roles forgotten, some of what was there and of
what the visits to them find, in this order. -/
theorem sublist_operationsAt_run (vs : List Visit) (s : List String) :
    ((operationsAt (run c vs nodes) s).map Operation.asExtracted).Sublist
      ((operationsAt nodes s).map Operation.asExtracted ++
        (visitsAt vs s).flatMap (Visit.operations c)) := by
  induction vs generalizing nodes with
  | nil => exact List.sublist_append_left _ _
  | cons v rest ih =>
      have hrun : run c (v :: rest) nodes = run c rest (v.revise c nodes) := rfl
      rw [hrun, visitsAt_cons]
      refine ih.trans ?_
      split
      · next hs =>
          subst hs
          have hadded : (v.added c nodes).map Operation.asExtracted = v.added c nodes :=
            Visit.map_asExtracted fun op hop => mem_operations_of_mem_added hop
          rw [Visit.operationsAt_revise_self, List.map_append, Visit.map_asExtracted_carried,
            hadded, List.flatMap_cons, List.append_assoc]
          exact ((taken_sublist _ _ _).append_right _).append_left _
      · next hs => rw [Visit.operationsAt_revise_of_ne hs]

/-- The operation that a member of `paths` defines for a method, if its segments are these. -/
def definedAt (c : Conventions) (s : List String) (member : Value × Value) (method : String) :
    Option Operation :=
  (Visit.ofMember? c member).bind fun v => if v.segments = s then v.operation? c method else none

theorem definedAt_eq_some {member : Value × Value} {method : String} {op : Operation} :
    definedAt c s member method = some op ↔
      ∃ v, Visit.ofMember? c member = some v ∧ v.segments = s ∧
        v.operation? c method = some op := by
  simp only [definedAt, Option.bind_eq_some_iff, Option.ite_none_right_eq_some]

theorem flatMap_visitsAt (members : Members) (s : List String) :
    (visitsAt (visits c members) s).flatMap (Visit.operations c) =
      members.flatMap fun m => c.methods.filterMap (definedAt c s m) := by
  induction members with
  | nil => rfl
  | cons m rest ih =>
      rw [List.flatMap_cons, ← ih, visits, visits]
      cases hm : Visit.ofMember? c m with
      | none =>
          have hnone : definedAt c s m = fun _ => none := by
            funext method
            rw [definedAt, hm, Option.bind_none]
          rw [List.filterMap_cons_none hm, hnone, List.filterMap_none, List.nil_append]
      | some v =>
          rw [List.filterMap_cons_some hm, visitsAt_cons]
          split
          · next hs =>
              have hfind : definedAt c s m = v.operation? c := by
                funext method
                rw [definedAt, hm, Option.bind_some, if_pos hs]
              rw [List.flatMap_cons, hfind, Visit.operations]
          · next hs =>
              have hnone : definedAt c s m = fun _ => none := by
                funext method
                rw [definedAt, hm, Option.bind_some, if_neg hs]
              rw [hnone, List.filterMap_none, List.nil_append]

/-! ## The parameter of a node -/

theorem Endpoint.parameter_isSome {e : Endpoint} (h : e.isParameterized = true) :
    e.parameter.isSome = true := by
  have htemplate : Template.isParameterized e.template = true := h
  have hparts : Template.parts e.template ≠ [] := Text.splitOn_ne_nil _ _
  rw [Endpoint.parameter, Template.trailingParameter, if_pos htemplate, Option.isSome_map,
    List.getLast?_eq_some_getLast hparts, Option.isSome_some]

/-- Whether a node has a parameter if one of its operations takes one or has been given its role
next to operations that take one. -/
def KnowsParameter (n : Node) : Prop :=
  ∀ op ∈ n.operations, op.withParameter = true ∨ op.role ≠ op.method → n.parameter.isSome = true

theorem knowsParameter_revise (h : ∀ n ∈ nodes, KnowsParameter n) :
    ∀ n ∈ v.revise c nodes, KnowsParameter n := by
  intro n hn
  rcases mem_store hn with ⟨-, rfl⟩ | hmem
  · cases hitem : v.isItem with
    | true =>
        intro op _ _
        rw [Visit.base, hitem, if_pos rfl]
        exact Endpoint.parameter_isSome hitem
    | false =>
        intro op hop hneed
        rw [Visit.base, hitem, if_neg Bool.false_ne_true]
        rcases List.mem_append.1 hop with hcarried | hadded
        · rw [Visit.carried_of_bare hitem] at hcarried
          cases hnode : nodeAt nodes v.segments with
          | none =>
              rw [operationsAt_eq_nil hnode] at hcarried
              cases hcarried
          | some m =>
              rw [operationsAt_of_nodeAt hnode] at hcarried
              exact h m (mem_of_nodeAt hnode) op hcarried hneed
        · -- A bare template finds nothing that takes a parameter.
          have hfound := mem_operations_of_mem_added hadded
          rw [Visit.withParameter_eq_isItem hfound, hitem, Visit.role_eq_method hfound] at hneed
          exact absurd hneed (by simp)
  · exact h n (Visit.mem_of_mem_cleared hmem)

theorem knowsParameter_run (h : ∀ n ∈ nodes, KnowsParameter n) (vs : List Visit) :
    ∀ n ∈ run c vs nodes, KnowsParameter n := by
  induction vs generalizing nodes with
  | nil => exact h
  | cons v rest ih => exact ih (knowsParameter_revise h)

/-! ## What a merge leaves -/

theorem eq_of_lookup_collectionRoles {m role : String} (h : collectionRoles.lookup m = some role) :
    (m = "get" ∧ role = "list") ∨ (m = "delete" ∧ role = "deleteAll") := by
  unfold collectionRoles at h
  simp only [List.lookup_cons, List.lookup_nil] at h
  split at h
  · next hget =>
      cases h
      exact Or.inl ⟨beq_iff_eq.1 hget, rfl⟩
  · split at h
    · next hdelete =>
        cases h
        exact Or.inr ⟨beq_iff_eq.1 hdelete, rfl⟩
    · cases h

/-- What an operation says of itself, and how its role and its method go together. -/
structure BelongsTo (s : List String) (op : Operation) : Prop where
  segments : Template.segments op.endpoint = s
  withParameter : op.withParameter = Template.isParameterized op.endpoint
  role : op.role = op.method ∨ (op.method = "get" ∧ op.role = "list") ∨
    (op.method = "delete" ∧ op.role = "deleteAll")

theorem belongsTo_of_mem_operations {op : Operation} (h : op ∈ v.operations c) :
    BelongsTo v.segments op := by
  obtain ⟨m, -, hop⟩ := List.mem_filterMap.1 h
  have hrecord := Visit.isRecordOf_of_operation? hop
  exact
    { segments := by rw [hrecord.endpoint_eq]; rfl
      withParameter := by rw [hrecord.endpoint_eq, hrecord.withParameter_eq]
      role := Or.inl (Visit.role_eq_method h) }

theorem belongsTo_of_mem_operationsAt {vs : List Visit} {op : Operation}
    (h : op ∈ operationsAt (run c vs []) s) : BelongsTo s op := by
  rcases mem_operationsAt_run h with ⟨_, hnil, -⟩ | ⟨x, hx, rfl, hbecomes⟩
  · cases hnil
  · have hfound := operation_mem_of_mem_extractions hx
    have hbelongs := belongsTo_of_mem_operations hfound
    cases hbecomes with
    | kept => exact hbelongs
    | replaced hrole _ =>
        rw [Visit.role_eq_method hfound] at hrole
        exact ⟨hbelongs.segments, hbelongs.withParameter,
          Or.inr (eq_of_lookup_collectionRoles hrole)⟩

/-- Each operation of a merged node has the node's segments, knows whether it takes a parameter,
and has its method for a role or the collection's role for it. The operations stand in the order in
which the templates that define them are visited and, for one template, in that of the methods asked
for. Where one takes a parameter or has another role than its method, the node has a parameter. -/
theorem operations_belong_to_their_nodes {c : Conventions} {paths : Members} {nodes : List Node}
    (h : (merge c paths).result = .ok nodes) :
    IsSorting (fun m => (templateLength m.1).getD 0) paths (ordered paths) ∧
    ∀ n ∈ nodes,
      (∀ op ∈ n.operations, BelongsTo n.segments op) ∧
      (∃ places : List (Nat × Nat), places.Pairwise (Prod.Lex (· < ·) (· < ·)) ∧
        List.Forall₂ (fun place op => ∃ member method v,
          (ordered paths)[place.1]? = some member ∧ c.methods[place.2]? = some method ∧
          Visit.ofMember? c member = some v ∧ v.segments = n.segments ∧
          v.operation? c method = some op.asExtracted) places n.operations) ∧
      ∀ op ∈ n.operations, op.withParameter = true ∨ op.role ≠ op.method →
        n.parameter.isSome = true := by
  obtain ⟨-, hrun, -⟩ := merge_ok h
  refine ⟨isSorting_ordered paths, fun n hn => ?_⟩
  have hops := operationsAt_of_mem (isTable_merge h).keyed hn
  rw [hrun] at hops
  refine ⟨fun op hop => belongsTo_of_mem_operationsAt (hops ▸ hop), ?_, ?_⟩
  · have hsub : ((operationsAt (run c (visits c (ordered paths)) []) n.segments).map
        Operation.asExtracted).Sublist _ := sublist_operationsAt_run _ _
    rw [hops, flatMap_visitsAt] at hsub
    obtain ⟨places, hincreasing, hfound⟩ := exists_places hsub
    refine ⟨places, hincreasing, (List.forall₂_map_right_iff.1 hfound).imp ?_⟩
    rintro place op ⟨member, method, hmember, hmethod, hdefined⟩
    obtain ⟨v, hv, hsegments, hop⟩ := definedAt_eq_some.1 hdefined
    exact ⟨member, method, v, hmember, hmethod, hv, hsegments, hop⟩
  · rw [hrun] at hn
    exact knowsParameter_run (fun _ hnil => (List.not_mem_nil hnil).elim) _ n hn

/-- Behind the operations of the collection stands that of its items, from the third template. -/
theorem operations_belong_to_their_nodes_of_shelves :
    (merge shelfConventions shelfPaths).result = .ok [shelfNode] ∧
    (∀ op ∈ shelfNode.operations, BelongsTo ["a"] op) ∧
    (∃ op ∈ shelfNode.operations, op.role ≠ op.method) ∧ shelfNode.parameter.isSome = true := by
  obtain ⟨-, hall⟩ := operations_belong_to_their_nodes result_merge_shelfPaths
  obtain ⟨hbelong, -, hparameter⟩ := hall shelfNode List.mem_cons_self
  have hlist : shelfOperation "/a" "get" "list" "list" ∈ shelfNode.operations := List.mem_cons_self
  have hrole : (shelfOperation "/a" "get" "list" "list").role ≠
      (shelfOperation "/a" "get" "list" "list").method := by decide
  exact ⟨result_merge_shelfPaths, hbelong, ⟨_, hlist, hrole⟩, hparameter _ hlist (Or.inr hrole)⟩

end Tree

end ApiOutline
