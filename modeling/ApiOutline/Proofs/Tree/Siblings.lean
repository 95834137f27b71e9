import Mathlib.Data.List.Permutation
import ApiOutline.Proofs.Tree.Locality
import ApiOutline.Proofs.Tree.Roles

/-!
# A collection and its items

A collection is to be visited before its items, so that their node takes over
its operations and tells reading all from reading one. Which of the two comes
first is decided by the lengths of the templates as they are written, though,
while it is their segments that make them siblings. A collection with a long
name for an inner parameter may be the longer one. Then it comes second, finds
the node of its items, and what both define is dropped.

Where just two templates have some segments, a run leaves there what the two
visits leave, whatever happens elsewhere. So either order can be followed to
its end (`operationsAt_run_collection_first`, `operationsAt_run_item_first`),
and the folding succeeds exactly if the collection comes first.
-/

namespace ApiOutline.Tree

variable {c : Conventions} {paths : Members} {nodes : List Node} {s : List String}

/-! ## Which of two templates is visited first -/

/-- Whether a template is visited before another one: it is the shorter one, or as long and
declared first. -/
def Visit.Precedes (c : Conventions) (paths : Members) (v w : Visit) : Prop :=
  v.endpoint.raw.length < w.endpoint.raw.length ∨
    v.endpoint.raw.length = w.endpoint.raw.length ∧ [v, w].Sublist (visits c paths)

theorem isSorting_visitsAt (c : Conventions) (paths : Members) (s : List String) :
    IsSorting (fun v : Visit => v.endpoint.raw.length) (visitsAt (visits c paths) s)
      (visitsAt (visits c (ordered paths)) s) :=
  (isSorting_visits c paths).filter _

section Pair

variable {v w : Visit} (hpair : (visitsAt (visits c paths) s).Perm [v, w])

include hpair

theorem visitsAt_eq_pair_iff :
    visitsAt (visits c paths) s = [v, w] ↔ [v, w].Sublist (visits c paths) := by
  constructor
  · intro h
    rw [← h]
    exact List.filter_sublist
  · intro hsub
    have hall : visitsAt [v, w] s = [v, w] := by
      refine List.filter_eq_self.2 fun u hu => ?_
      exact beq_iff_eq.2 (mem_visitsAt.1 (hpair.mem_iff.2 hu)).2
    have hfilter : (visitsAt [v, w] s).Sublist (visitsAt (visits c paths) s) := hsub.filter _
    rw [hall] at hfilter
    exact (hfilter.eq_of_length hpair.length_eq.symm).symm

theorem visitsAt_ordered_pair :
    visitsAt (visits c (ordered paths)) s = [v, w] ∨
      visitsAt (visits c (ordered paths)) s = [w, v] :=
  List.perm_pair.1 ((isSorting_visitsAt c paths s).perm.trans hpair)

theorem visitsAt_ordered_of_precedes (h : v.Precedes c paths w) :
    visitsAt (visits c (ordered paths)) s = [v, w] := by
  have hsorting := isSorting_visitsAt c paths s
  rcases h with hlt | ⟨heq, hsub⟩
  · rcases visitsAt_ordered_pair hpair with hvw | hwv
    · exact hvw
    · have hle := hsorting.ascending
      rw [hwv, List.pairwise_pair] at hle
      omega
  · have hdeclared := (visitsAt_eq_pair_iff hpair).2 hsub
    rw [hsorting.eq_of_ascending, hdeclared]
    rw [hdeclared, List.pairwise_pair]
    exact Nat.le_of_eq heq

theorem visitsAt_ordered_of_not_precedes (h : ¬ v.Precedes c paths w) :
    visitsAt (visits c (ordered paths)) s = [w, v] := by
  rcases visitsAt_ordered_pair hpair with hvw | hwv
  · exfalso
    have hsorting := isSorting_visitsAt c paths s
    have hle := hsorting.ascending
    rw [hvw, List.pairwise_pair] at hle
    rcases Nat.lt_or_eq_of_le hle with hlt | heq
    · exact h (Or.inl hlt)
    · -- Of one length, they are visited as they are declared.
      have hdeclared : (visitsAt (visits c paths) s).Pairwise fun u u' =>
          u.endpoint.raw.length ≤ u'.endpoint.raw.length := by
        rcases List.perm_pair.1 hpair with hd | hd
        · rw [hd, List.pairwise_pair]
          exact Nat.le_of_eq heq
        · rw [hd, List.pairwise_pair]
          exact Nat.le_of_eq heq.symm
      rw [hsorting.eq_of_ascending hdeclared, visitsAt_eq_pair_iff hpair] at hvw
      exact h (Or.inr ⟨heq, hvw⟩)
  · exact hwv

end Pair

/-! ## Two visits -/

theorem operationsAt_run_visitsAt (vs : List Visit) (s : List String) :
    operationsAt (run c vs nodes) s = operationsAt (run c (visitsAt vs s) nodes) s := by
  rw [operationsAt, operationsAt, nodeAt_run_visitsAt]

/-- The first visit to some segments leaves what it finds. -/
theorem Visit.operationsAt_revise_nil (v : Visit) :
    operationsAt (v.revise c []) v.segments = v.operations c := by
  have hcarried : v.carried [] = [] := Visit.carried_eq_nil.2 rfl
  have happends : v.appends [] = false := Bool.and_false _
  rw [Visit.operationsAt_revise_self, Visit.added, hcarried, happends, taken_false, List.nil_append]

theorem singular_operations (hm : c.methods.Nodup) (v : Visit) : Singular (v.operations c) :=
  fun r _ => countRole_operations_le hm r

theorem operationsAt_run_collection_first {collection item : Visit} (hm : c.methods.Nodup)
    (hs : collection.segments = item.segments) (hitem : item.isItem = true) :
    operationsAt (run c [collection, item] []) item.segments =
      ((collection.operations c).map fun op =>
        { op with role := roleAfter [item] item.segments op.role }) ++ item.operations c := by
  have hfirst : operationsAt (collection.revise c []) item.segments = collection.operations c := by
    rw [← hs, Visit.operationsAt_revise_nil]
  have hrun : run c [collection, item] [] = item.revise c (collection.revise c []) := rfl
  rw [hrun, Visit.operationsAt_revise_self, carried_eq_map, hfirst, Visit.added, Visit.appends,
    hitem, Bool.not_true, Bool.false_and, taken_false]
  rw [hfirst]
  exact singular_operations hm collection

theorem appends_of_operationsAt_ne_nil {v : Visit} (hbare : v.isItem = false)
    (h : operationsAt nodes v.segments ≠ []) : v.appends nodes = true := by
  rw [Visit.appends, hbare, Bool.not_false, Bool.true_and]
  cases hn : nodeAt nodes v.segments with
  | none => exact absurd (operationsAt_eq_nil hn) h
  | some n => rfl

theorem operationsAt_run_item_first {collection item : Visit}
    (hs : collection.segments = item.segments) (hbare : collection.isItem = false)
    (hne : item.operations c ≠ []) :
    operationsAt (run c [item, collection] []) item.segments =
        item.operations c ++ taken true (item.operations c) (collection.operations c) ∧
      collection.dropped c (item.revise c []) =
        refused true (item.operations c) (collection.operations c) := by
  have hfirst : operationsAt (item.revise c []) collection.segments = item.operations c := by
    rw [hs, Visit.operationsAt_revise_nil]
  have happends : collection.appends (item.revise c []) = true := by
    refine appends_of_operationsAt_ne_nil hbare ?_
    rw [hfirst]
    exact hne
  have hrun : run c [item, collection] [] = collection.revise c (item.revise c []) := rfl
  rw [hrun, ← hs, Visit.operationsAt_revise_self, Visit.added, Visit.dropped, happends,
    Visit.carried_of_bare hbare, hfirst]
  exact ⟨rfl, rfl⟩

/-- An operation whose role is taken is not taken up. -/
theorem mem_refused_of_rival {ops new : List Operation} {op : Operation} (h : op ∈ new)
    (hrival : (ops.any fun rival => rival.role == op.role) = true) : op ∈ refused true ops new := by
  induction new generalizing ops with
  | nil => cases h
  | cons first rest ih =>
      rw [refused]
      rcases List.mem_cons.1 h with rfl | hmem
      · rw [Bool.true_and, if_pos hrival]
        exact List.mem_cons_self
      · split
        · exact List.mem_cons_of_mem _ (ih hmem hrival)
        · refine ih hmem ?_
          rw [List.any_append, hrival, Bool.true_or]

/-! ## The folding -/

section Folding

variable {collection item : Visit} {m role : String} {op op' : Operation}

/-- If the collection comes first, its operation gets the collection's role. -/
theorem folds_of_collection_first (hm : c.methods.Nodup)
    (hs : collection.segments = item.segments) (hitem : item.isItem = true)
    (hrole : collectionRoles.lookup m = some role) (hop : collection.operation? c m = some op)
    (hop' : item.operation? c m = some op') :
    op' ∈ operationsAt (run c [collection, item] []) item.segments ∧
      { op with role := role } ∈ operationsAt (run c [collection, item] []) item.segments := by
  rw [operationsAt_run_collection_first hm hs hitem]
  refine ⟨List.mem_append_right _ (Visit.mem_operations_of_operation? hop'),
    List.mem_append_left _ (List.mem_map.2 ⟨op, Visit.mem_operations_of_operation? hop, ?_⟩)⟩
  have hrepeats : item.repeats item.segments m = true := by
    rw [Visit.repeats, beq_self_eq_true, hitem, Visit.has_of_operation? hop']
    rfl
  have hafter : roleAfter [item] item.segments m = role := by
    rw [roleAfter, List.any_cons, hrepeats, Bool.true_or, if_pos rfl, hrole, Option.getD_some]
  rw [(Visit.isRecordOf_of_operation? hop).role_eq, hafter]

/-- If the item comes first, all roles are methods, and the collection's operation is dropped. -/
theorem drops_of_item_first (hs : collection.segments = item.segments)
    (hbare : collection.isItem = false) (hrole : collectionRoles.lookup m = some role)
    (hop : collection.operation? c m = some op) (hop' : item.operation? c m = some op') :
    op' ∈ operationsAt (run c [item, collection] []) item.segments ∧
      { op with role := role } ∉ operationsAt (run c [item, collection] []) item.segments ∧
      Note.dropped collection.endpoint.raw ("/".intercalate item.segments) op ∈
        runWarnings c [item, collection] [] := by
  have hfound := Visit.mem_operations_of_operation? hop
  have hfound' := Visit.mem_operations_of_operation? hop'
  have hrecord := Visit.isRecordOf_of_operation? hop
  obtain ⟨hops, hdropped⟩ :=
    operationsAt_run_item_first hs hbare (List.ne_nil_of_mem hfound')
  rw [hops]
  refine ⟨List.mem_append_left _ hfound', ?_, ?_⟩
  · intro hmem
    have hmethod : role = op.method := by
      rcases List.mem_append.1 hmem with h | h
      · exact Visit.role_eq_method h
      · exact Visit.role_eq_method ((taken_sublist _ _ _).subset h)
    -- The collection's role would be a method that has such a role itself.
    have hnone := lookup_of_lookup_collectionRoles hrole
    rw [hmethod, hrecord.method_eq, hrole] at hnone
    cases hnone
  · have hrival : ((item.operations c).any fun rival => rival.role == op.role) = true := by
      refine List.any_eq_true.2 ⟨op', hfound', beq_iff_eq.2 ?_⟩
      rw [(Visit.isRecordOf_of_operation? hop').role_eq, hrecord.role_eq]
    have hrefused : op ∈ collection.dropped c (item.revise c []) := by
      rw [hdropped]
      exact mem_refused_of_rival hfound hrival
    rw [runWarnings, runWarnings, ← hs]
    exact List.mem_append_right _ (List.mem_append_left _ (List.mem_map_of_mem hrefused))

/-- Whichever comes first, the item's operation is found, and the collection's is folded or
dropped. -/
theorem folds_or_drops (hm : c.methods.Nodup)
    (hpair : (visitsAt (visits c paths) item.segments).Perm [collection, item])
    (hbare : collection.isItem = false) (hitem : item.isItem = true)
    (hrole : collectionRoles.lookup m = some role) (hop : collection.operation? c m = some op)
    (hop' : item.operation? c m = some op') {vs : List Visit}
    (hvs : visitsAt (visits c (ordered paths)) item.segments = vs) :
    op' ∈ operationsAt (run c vs []) item.segments ∧
      ({ op with role := role } ∈ operationsAt (run c vs []) item.segments ↔
        collection.Precedes c paths item) ∧
      (¬ collection.Precedes c paths item →
        Note.dropped collection.endpoint.raw ("/".intercalate item.segments) op ∈
          runWarnings c vs []) := by
  have hs : collection.segments = item.segments :=
    (mem_visitsAt.1 (hpair.mem_iff.2 List.mem_cons_self)).2
  by_cases hfirst : collection.Precedes c paths item
  · rw [visitsAt_ordered_of_precedes hpair hfirst] at hvs
    subst hvs
    obtain ⟨hmem', hmem⟩ := folds_of_collection_first hm hs hitem hrole hop hop'
    exact ⟨hmem', iff_of_true hmem hfirst, fun hnot => absurd hfirst hnot⟩
  · rw [visitsAt_ordered_of_not_precedes hpair hfirst] at hvs
    subst hvs
    obtain ⟨hmem', hmem, hdropped⟩ := drops_of_item_first hs hbare hrole hop hop'
    exact ⟨hmem', iff_of_false hmem hfirst, fun _ => hdropped⟩

end Folding

/-- Where a collection and its items are all that has some segments, one node stands for both. If
both have a method that has a role for collections, the node holds the item's operation, and it
holds the collection's in that role exactly if the collection's template is visited first.
Otherwise the collection's operation is dropped. -/
theorem folds_iff_collection_precedes {c : Conventions} {paths : Members} {nodes : List Node}
    {collection item : Visit} {m role : String} {op op' : Operation} (hm : c.methods.Nodup)
    (h : (merge c paths).result = .ok nodes)
    (hpair : (visitsAt (visits c paths) item.segments).Perm [collection, item])
    (hbare : collection.isItem = false) (hitem : item.isItem = true)
    (hrole : collectionRoles.lookup m = some role) (hop : collection.operation? c m = some op)
    (hop' : item.operation? c m = some op') :
    ∃ n ∈ nodes, n.segments = item.segments ∧
      (∀ n' ∈ nodes, n'.segments = item.segments → n' = n) ∧
      op'.role = m ∧ op' ∈ n.operations ∧
      ({ op with role := role } ∈ n.operations ↔ collection.Precedes c paths item) ∧
      (¬ collection.Precedes c paths item →
        Note.dropped collection.endpoint.raw n.path op ∈ (merge c paths).warnings) := by
  have hrole' := (Visit.isRecordOf_of_operation? hop').role_eq
  obtain ⟨-, hrun, hwarn⟩ := merge_ok h
  obtain ⟨hmem', hiff, hdropped⟩ := folds_or_drops hm hpair hbare hitem hrole hop hop' rfl
  rw [← operationsAt_run_visitsAt, ← hrun] at hmem' hiff
  obtain ⟨n, hn, hsegments, hops, hunique⟩ :=
    exists_node_of_mem_operationsAt (isTable_merge h).keyed hmem'
  rw [← hops] at hmem' hiff
  refine ⟨n, hn, hsegments, hunique, hrole', hmem', hiff, fun hnot => ?_⟩
  rw [hwarn, (perm_runWarnings_visitsAt _ item.segments).mem_iff, Node.path, hsegments]
  exact List.mem_append_left _ (hdropped hnot)

def roomVisit : Visit := ⟨⟨"/room", "/room"⟩, [(.str "get", shelfDefinition "room")]⟩

def roomItemVisit : Visit :=
  ⟨⟨"/room/\x7bx\x7d", "/room/\x7bx\x7d"⟩, [(.str "get", shelfDefinition "item")]⟩

theorem folds_iff_collection_precedes_of_house :
    visitsAt (visits shelfConventions houseLarger) ["room"] = [roomVisit, roomItemVisit] ∧
    roomVisit.Precedes shelfConventions houseLarger roomItemVisit ∧
    ∃ n ∈ [houseNode "hall", houseNode "loft", houseItem, houseNode "basement"],
      n.segments = ["room"] ∧
      shelfOperation "/room/\x7bx\x7d" "get" "get" "item" ∈ n.operations ∧
      shelfOperation "/room" "get" "list" "room" ∈ n.operations := by
  have hvisits : visitsAt (visits shelfConventions houseLarger) ["room"] =
      [roomVisit, roomItemVisit] := rfl
  have hfirst : roomVisit.Precedes shelfConventions houseLarger roomItemVisit :=
    Or.inl (by decide +kernel)
  have hpair : (visitsAt (visits shelfConventions houseLarger) roomItemVisit.segments).Perm
      [roomVisit, roomItemVisit] := List.Perm.of_eq hvisits
  obtain ⟨n, hn, hsegments, -, -, hitem, hfolds, -⟩ :=
    folds_iff_collection_precedes (m := "get") (by decide) result_merge_houseLarger hpair rfl rfl
      rfl rfl rfl
  exact ⟨hvisits, hfirst, n, hn, hsegments, hitem, hfolds.2 hfirst⟩

/-! ## Users of accounts

The template of the collection names its inner parameter more fully, and so is
the longer one. -/

def usersTemplate : String := "/accounts/\x7baccountId\x7d/users"

def userTemplate : String := "/accounts/\x7bid\x7d/users/\x7bn\x7d"

def usersPaths : Members :=
  [(.str usersTemplate, .ofMembers [(.str "get", shelfDefinition "listUsers")]),
   (.str userTemplate, .ofMembers [(.str "get", shelfDefinition "readUser")])]

def usersVisit : Visit :=
  ⟨⟨usersTemplate, usersTemplate⟩, [(.str "get", shelfDefinition "listUsers")]⟩

def userVisit : Visit :=
  ⟨⟨userTemplate, userTemplate⟩, [(.str "get", shelfDefinition "readUser")]⟩

def usersNode : Node where
  segments := ["accounts", "users"]
  parameter := some "n"
  defaultParameter := none
  operations := [shelfOperation userTemplate "get" "get" "readUser"]
  endpoint := some userTemplate

theorem ordered_usersPaths : ordered usersPaths = usersPaths.reverse := by
  have hlong : ¬ usersTemplate.length ≤ userTemplate.length := by decide +kernel
  simp [ordered, usersPaths, templateLength, List.mergeSort,
    List.MergeSort.Internal.splitInTwo, hlong]

/-- The operation of the collection is dropped, and none has the role for collections. -/
theorem longer_collection_dropped :
    visits .default usersPaths = [usersVisit, userVisit] ∧
    usersVisit.segments = userVisit.segments ∧
    usersVisit.isItem = false ∧ userVisit.isItem = true ∧
    (merge .default usersPaths).result = .ok [usersNode] ∧
    (merge .default usersPaths).warnings =
      [.dropped usersTemplate "accounts/users"
        (shelfOperation usersTemplate "get" "get" "listUsers")] ∧
    ∀ op ∈ usersNode.operations, op.role ≠ "list" := by
  have husers : Endpoint.ofTemplate Conventions.default.rules usersTemplate =
      .ok ⟨usersTemplate, usersTemplate⟩ := by decide +kernel
  have huser : Endpoint.ofTemplate Conventions.default.rules userTemplate =
      .ok ⟨userTemplate, userTemplate⟩ := by decide +kernel
  have hvisits : visits .default usersPaths = [usersVisit, userVisit] := by
    simp only [visits, usersPaths, List.filterMap_cons, List.filterMap_nil, Value.ofMembers,
      Visit.ofMember?, husers, huser]
    rfl
  refine ⟨hvisits, by decide +kernel, by decide +kernel, by decide +kernel, ?_⟩
  rw [merge, if_pos (by decide +kernel), ordered_usersPaths, usersPaths, List.reverse_cons,
    List.reverse_cons, List.reverse_nil, List.nil_append, List.singleton_append]
  simp only [addMembers, addMember, husers, huser]
  exact ⟨rfl, rfl, by decide⟩

end ApiOutline.Tree
