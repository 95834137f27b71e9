import Mathlib.Data.List.Induction
import ApiOutline.Proofs.Tree.Relabelling
import ApiOutline.Proofs.Tree.Success

/-!
# Methods do not interfere

Asked for fewer methods, the merge makes a node later, for another template or
not at all, and a template whose operations were added to a node may be the
one that makes it. So the tables of the two runs differ from the first visit
on. What they hold at some segments does not: the smaller run holds there what
the larger one holds, less the operations of the other methods, in the same
order and in the same roles (`operationsAt_run_ofMethods`).

Two facts carry this from visit to visit. Roles are replaced one by one, so
relabelling is a map and lets go of no operation for the sake of another. And
a role that the merge gives is no method, so that an operation is dropped only
behind one of its own method, which the smaller run holds as well.
-/

namespace ApiOutline.Tree

variable {c : Conventions} {v : Visit} {nodes nodes' : List Node} {ms : List String}

/-- Those of some operations that have one of these methods. -/
def ofMethods (ms : List String) (ops : List Operation) : List Operation :=
  ops.filter fun op => ms.contains op.method

/-! ## What a visit finds -/

theorem filter_contains_of_sublist {xs ys : List String} (h : xs.Sublist ys) (hn : ys.Nodup) :
    (ys.filter fun y => xs.contains y) = xs := by
  induction h with
  | slnil => rfl
  | cons y hsub ih =>
      obtain ⟨hy, hn⟩ := List.nodup_cons.1 hn
      rw [List.filter_cons_of_neg, ih hn]
      simpa using fun hmem => hy (hsub.subset hmem)
  | @cons_cons xs ys x hsub ih =>
      obtain ⟨hx, hn⟩ := List.nodup_cons.1 hn
      have hrest : ∀ y ∈ ys, (x :: xs).contains y = xs.contains y := by
        intro y hy
        have hne : y ≠ x := fun heq => hx (heq ▸ hy)
        simp [hne]
      rw [List.filter_cons_of_pos (by simp), List.filter_congr hrest, ih hn]

namespace Visit

theorem look_of_subset {m : String} (hsub : ms ⊆ c.methods) (hm : m ∈ ms) (v : Visit) :
    v.look { c with methods := ms } m = v.look c m := by
  refine Definition.ofDefinition?_congr ?_ _ _
  rw [Operation.asked_of_mem hm, Operation.asked_of_mem (hsub hm)]
  show ms.contains m = c.methods.contains m
  rw [List.contains_iff_mem.2 hm, List.contains_iff_mem.2 (hsub hm)]

theorem operations_of_sublist (hsub : ms.Sublist c.methods) (hn : c.methods.Nodup) (v : Visit) :
    v.operations { c with methods := ms } = ofMethods ms (v.operations c) := by
  have hfound : ∀ m ∈ c.methods, (if ms.contains m then v.operation? c m else none) =
      (v.operation? c m).filter fun op => ms.contains op.method := by
    intro m _
    cases hop : v.operation? c m with
    | none => simp
    | some op => simp [(isRecordOf_of_operation? hop).method_eq, Option.filter]
  calc
    v.operations { c with methods := ms }
    _ = ms.filterMap (v.operation? c) := by
      refine List.filterMap_congr fun m hm => ?_
      rw [operation?, operation?, if_pos hm, if_pos (hsub.subset hm), look_of_subset hsub.subset hm]
    _ = (c.methods.filter fun m => ms.contains m).filterMap (v.operation? c) := by
      rw [filter_contains_of_sublist hsub hn]
    _ = c.methods.filterMap fun m =>
          (v.operation? c m).filter fun op => ms.contains op.method := by
      rw [List.filterMap_filter]
      exact List.filterMap_congr hfound
    _ = ofMethods ms (v.operations c) := (List.filter_filterMap ..).symm

theorem IsReadable.of_subset (h : v.IsReadable c) (hsub : ms ⊆ c.methods) :
    v.IsReadable { c with methods := ms } := by
  intro m hm
  rw [look_of_subset hsub hm]
  exact h m (hsub hm)

end Visit

/-! ## What a visit takes up -/

/-- Where operations with one role are alike, each kind of them is taken up without a look at the
others. -/
theorem filter_taken {p : Operation → Bool} {ops new : List Operation}
    (h : ∀ x ∈ ops ++ new, ∀ y ∈ new, x.role = y.role → p x = p y) :
    (taken true ops new).filter p = taken true (ops.filter p) (new.filter p) := by
  induction new generalizing ops with
  | nil => rfl
  | cons op rest ih =>
      have hrest : ∀ x ∈ ops ++ rest, ∀ y ∈ rest, x.role = y.role → p x = p y := by
        intro x hx y hy
        refine h x ?_ y (List.mem_cons_of_mem op hy)
        exact (List.mem_append.1 hx).elim (List.mem_append_left _) fun hmem =>
          List.mem_append_right _ (List.mem_cons_of_mem op hmem)
      have hadded : ∀ x ∈ (ops ++ [op]) ++ rest, ∀ y ∈ rest, x.role = y.role → p x = p y := by
        intro x hx y hy
        rw [List.append_assoc] at hx
        exact h x hx y (List.mem_cons_of_mem op hy)
      have halike : ∀ x ∈ ops, x.role = op.role → p x = p op := fun x hx =>
        h x (List.mem_append_left _ hx) op List.mem_cons_self
      rw [taken, Bool.true_and]
      cases hp : p op with
      | true =>
          -- Whatever has the role of this operation is of its kind, so either list holds it.
          have hany : ((ops.filter p).any fun x => x.role == op.role) =
              ops.any fun x => x.role == op.role := by
            rw [Bool.eq_iff_iff]
            simp only [List.any_eq_true, List.mem_filter, beq_iff_eq]
            constructor
            · rintro ⟨x, ⟨hx, -⟩, hrole⟩
              exact ⟨x, hx, hrole⟩
            · rintro ⟨x, hx, hrole⟩
              exact ⟨x, ⟨hx, (halike x hx hrole).trans hp⟩, hrole⟩
          rw [List.filter_cons_of_pos hp, taken, Bool.true_and, hany]
          split
          · exact ih hrest
          · rw [List.filter_cons_of_pos hp, ih hadded, List.filter_append,
              List.filter_singleton, hp]
            rfl
      | false =>
          rw [List.filter_cons_of_neg (by rw [hp]; exact Bool.false_ne_true)]
          split
          · exact ih hrest
          · rw [List.filter_cons_of_neg (by rw [hp]; exact Bool.false_ne_true), ih hadded,
              List.filter_append, List.filter_singleton, hp]
            simp

theorem taken_of_free {appending : Bool} {ops new : List Operation}
    (h : ((ops ++ new).map Operation.role).Nodup) : taken appending ops new = new := by
  induction new generalizing ops with
  | nil => rfl
  | cons op rest ih =>
      have hfree : ¬ (appending && ops.any fun x => x.role == op.role) = true := by
        intro hany
        obtain ⟨x, hx, hrole⟩ := List.any_eq_true.1 (Bool.and_eq_true_iff.1 hany).2
        rw [List.map_append, List.nodup_append] at h
        refine h.2.2 x.role (List.mem_map_of_mem hx) op.role ?_ (beq_iff_eq.1 hrole)
        exact List.mem_map_of_mem List.mem_cons_self
      rw [taken, if_neg hfree, ih]
      rwa [List.append_assoc]

namespace Visit

/-- A bare template takes an operation up where its role is free, whether or not there is a node. -/
theorem added_of_bare (hbare : v.isItem = false) (hn : c.methods.Nodup) :
    v.added c nodes = taken true (operationsAt nodes v.segments) (v.operations c) := by
  rw [added, carried_of_bare hbare, appends, hbare, Bool.not_false, Bool.true_and]
  cases hnode : nodeAt nodes v.segments with
  | some n => rfl
  | none =>
      have hroles : (([] ++ v.operations c).map Operation.role).Nodup := by
        rw [List.nil_append, List.map_congr_left fun op hop => role_eq_method hop]
        exact nodup_map_method_operations hn
      rw [operationsAt_eq_nil hnode, taken_of_free hroles, taken_of_free hroles]

end Visit

/-! ## Two runs -/

/-- Whether no method is a role that the merge gives. -/
def RolesAreFree (c : Conventions) : Prop :=
  ∀ m ∈ c.methods, ∀ r, collectionRoles.lookup r ≠ some m

theorem role_of_mem_operationsAt_run {vs : List Visit} {s : List String} {op : Operation}
    (h : op ∈ operationsAt (run c vs []) s) :
    op.role = op.method ∨ collectionRoles.lookup op.method = some op.role := by
  rcases mem_operationsAt_run h with ⟨old, hold, -⟩ | ⟨x, hx, -, hbecomes⟩
  · cases hold
  · have hrole := Visit.role_eq_method (operation_mem_of_mem_extractions hx)
    cases hbecomes with
    | kept => exact Or.inl hrole
    | replaced hlookup _ => exact Or.inr (hrole ▸ hlookup)

theorem Visit.method_mem {op : Operation} (h : op ∈ v.operations c) : op.method ∈ c.methods := by
  obtain ⟨m, hm, hop⟩ := List.mem_filterMap.1 h
  rwa [(isRecordOf_of_operation? hop).method_eq]

/-- What takes the role of a found operation away from it has its method. -/
theorem method_eq_of_role_eq (hfree : RolesAreFree c) {vs : List Visit}
    {s : List String} {x y : Operation}
    (hx : x ∈ operationsAt (run c vs []) s ++ v.operations c) (hy : y ∈ v.operations c)
    (hrole : x.role = y.role) : x.method = y.method := by
  have hy' := Visit.role_eq_method hy
  rcases List.mem_append.1 hx with hheld | hfound
  · rcases role_of_mem_operationsAt_run hheld with hx' | hlookup
    · rw [← hx', hrole, hy']
    · rw [hrole, hy'] at hlookup
      exact absurd hlookup (hfree y.method (Visit.method_mem hy) x.method)
  · rw [← Visit.role_eq_method hfound, hrole, hy']

theorem carried_ofMethods (h : Singular (operationsAt nodes v.segments))
    (hsame : operationsAt nodes' v.segments = ofMethods ms (operationsAt nodes v.segments)) :
    v.carried nodes' = ofMethods ms (v.carried nodes) := by
  have h' : Singular (operationsAt nodes' v.segments) := by
    intro r hr
    rw [hsame]
    exact Nat.le_trans (List.Sublist.countP_le List.filter_sublist) (h r hr)
  rw [carried_eq_map h, carried_eq_map h', hsame, ofMethods, ofMethods, List.filter_map]
  rfl

/-- Asked for some of the methods, a run holds at all segments what the run for all of them holds
of these methods. -/
theorem operationsAt_run_ofMethods (hfree : RolesAreFree c) (hn : c.methods.Nodup)
    (hsub : ms.Sublist c.methods) (vs : List Visit) (s : List String) :
    operationsAt (run { c with methods := ms } vs []) s =
      ofMethods ms (operationsAt (run c vs []) s) := by
  induction vs using List.reverseRecOn generalizing s with
  | nil => rfl
  | append_singleton vs v ih =>
      rw [run_concat, run_concat]
      by_cases hs : v.segments = s
      · subst hs
        have hsame := ih v.segments
        have hnil : ∀ t, Singular (operationsAt [] t) := fun _ => singular_nil
        have hsingular := singular_run hn hnil vs v.segments
        have hadded : v.added { c with methods := ms } (run { c with methods := ms } vs []) =
            ofMethods ms (v.added c (run c vs [])) := by
          cases hitem : v.isItem with
          | true =>
              rw [Visit.added_of_isItem hitem, Visit.added_of_isItem hitem,
                Visit.operations_of_sublist hsub hn]
          | false =>
              rw [Visit.added_of_bare hitem (hsub.nodup hn), Visit.added_of_bare hitem hn, hsame,
                Visit.operations_of_sublist hsub hn, ofMethods, ofMethods, ofMethods, filter_taken]
              intro x hx y hy hrole
              rw [method_eq_of_role_eq hfree hx hy hrole]
        rw [Visit.operationsAt_revise_self, Visit.operationsAt_revise_self, hadded,
          carried_ofMethods hsingular hsame, ofMethods, ofMethods, ofMethods, List.filter_append]
      · rw [Visit.operationsAt_revise_of_ne hs, Visit.operationsAt_revise_of_ne hs]
        exact ih s

theorem rolesAreFree_of_subset (h : c.methods ⊆ Conventions.defaultMethods) : RolesAreFree c := by
  have hlast : ∀ p ∈ collectionRoles, p.2 ∉ Conventions.defaultMethods := by decide
  intro m hm r hlookup
  obtain ⟨before, after, hsplit, -⟩ := List.lookup_eq_some_iff.1 hlookup
  refine hlast (r, m) ?_ (h hm)
  rw [hsplit]
  exact List.mem_append_right _ List.mem_cons_self

/-- A merge that succeeds also succeeds for some of its methods, and then a node holds the
operations that have one of these methods, in their order and with their roles. -/
theorem merge_restricts_to_methods {c : Conventions} {paths : Members} {nodes : List Node}
    {ms : List String} (hverbs : c.methods ⊆ Conventions.defaultMethods) (hn : c.methods.Nodup)
    (hsub : ms.Sublist c.methods) (h : (merge c paths).result = .ok nodes) :
    ∃ nodes', (merge { c with methods := ms } paths).result = .ok nodes' ∧
      ∀ s, operationsAt nodes' s =
        (operationsAt nodes s).filter fun op => ms.contains op.method := by
  obtain ⟨hlengths, hread⟩ := merge_isOk_iff.1 ⟨nodes, h⟩
  have hread' : IsReadable { c with methods := ms } paths := by
    intro m hm hmap
    obtain ⟨v, hv, hvread⟩ := hread m hm hmap
    exact ⟨v, hv, hvread.of_subset hsub.subset⟩
  obtain ⟨nodes', h'⟩ := merge_isOk_iff.2 ⟨hlengths, hread'⟩
  refine ⟨nodes', h', fun s => ?_⟩
  obtain ⟨-, hrun, -⟩ := merge_ok h
  obtain ⟨-, hrun', -⟩ := merge_ok h'
  rw [hrun, hrun']
  exact operationsAt_run_ofMethods (rolesAreFree_of_subset hverbs) hn hsub _ s

/-- Without the method `post`, one operation of the shelves is missing, and the others are as they
were: the collection's in its new role, the dropped one still dropped. -/
theorem merge_restricts_to_methods_of_shelves :
    shelfConventions.methods ⊆ Conventions.defaultMethods ∧ shelfConventions.methods.Nodup ∧
    ["get"].Sublist shelfConventions.methods ∧
    (merge shelfConventions shelfPaths).result = .ok [shelfNode] ∧
    ∃ nodes', (merge { shelfConventions with methods := ["get"] } shelfPaths).result = .ok nodes' ∧
      operationsAt nodes' ["a"] =
        [shelfOperation "/a" "get" "list" "list",
          shelfOperation "/{t}/a/{x}" "get" "get" "read"] := by
  have hverbs : shelfConventions.methods ⊆ Conventions.defaultMethods := by decide
  have hn : shelfConventions.methods.Nodup := by decide
  have hsub : ["get"].Sublist shelfConventions.methods := by decide
  obtain ⟨nodes', h', hops⟩ := merge_restricts_to_methods hverbs hn hsub result_merge_shelfPaths
  exact ⟨hverbs, hn, hsub, result_merge_shelfPaths, nodes', h', hops ["a"]⟩

end ApiOutline.Tree
