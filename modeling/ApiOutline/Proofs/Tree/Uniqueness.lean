import ApiOutline.Proofs.Tree.Belonging
import ApiOutline.Proofs.Tree.Methods
import ApiOutline.Proofs.Tree.Siblings

/-!
# How often a role is held

A role is to tell the operations of a node apart, but the merge sees to it in
two ways only. A bare template adds an operation where its role is free. An item
adds whatever it finds and gives new roles to what it repeats, if there are
such roles: there are for two methods. Any other method that an item repeats is
the role of two operations.

So the number of operations with a role is followed from visit to visit. For a
method without a collection role, it goes up with each item that finds the
method (`countRole_run_plain`). For one that has such a role, two numbers go
together: an item that has the method for a key adds the number of operations
with the method to that of operations with the collection role, and starts the
former anew. For the collection role to be held twice, two items have to give
it, each to an operation that was found before it and not before the other
(`relabelled_of_countRole`).
-/

namespace ApiOutline.Tree

variable {c : Conventions} {v : Visit} {vs : List Visit} {nodes : List Node} {s : List String}
  {m r role : String} {ops new : List Operation}

/-! ## One visit -/

/-- Whether a visit finds an operation for a method. -/
def Visit.Finds (c : Conventions) (v : Visit) (m : String) : Prop :=
  ∃ op ∈ v.operations c, op.method = m

theorem Visit.finds_iff : v.Finds c m ↔ 0 < countRole m (v.operations c) := by
  rw [countRole, List.countP_pos_iff]
  constructor
  · rintro ⟨op, hop, rfl⟩
    exact ⟨op, hop, beq_iff_eq.2 (Visit.role_eq_method hop)⟩
  · rintro ⟨op, hop, hrole⟩
    exact ⟨op, hop, (Visit.role_eq_method hop).symm.trans (beq_iff_eq.1 hrole)⟩

theorem countRole_operations_of_not_mem (h : r ∉ c.methods) : countRole r (v.operations c) = 0 := by
  refine List.countP_eq_zero.2 fun op hop heq => h ?_
  rw [← beq_iff_eq.1 heq, Visit.role_eq_method hop]
  exact Visit.method_mem hop

/-- Where a role is held, no more operations with it are taken up. -/
theorem countRole_taken_of_held (h : countRole r ops ≠ 0) :
    countRole r (taken true ops new) = 0 := by
  induction new generalizing ops with
  | nil => rfl
  | cons op rest ih =>
      rw [taken, Bool.true_and]
      split
      · exact ih h
      · next hfree =>
          have hne : op.role ≠ r := by
            rintro rfl
            obtain ⟨held, hheld, hrole⟩ := List.countP_pos_iff.1 (Nat.pos_of_ne_zero h)
            exact hfree (List.any_eq_true.2 ⟨held, hheld, hrole⟩)
          rw [countRole_cons, if_neg hne, ih]
          rw [countRole_append]
          omega

/-- Where a role is free, the one operation with it is taken up. -/
theorem countRole_taken_of_free (h : countRole r ops = 0) (hnew : countRole r new ≤ 1) :
    countRole r (taken true ops new) = countRole r new := by
  induction new generalizing ops with
  | nil => rfl
  | cons op rest ih =>
      rw [countRole_cons] at hnew ⊢
      rw [taken, Bool.true_and]
      by_cases hrole : op.role = r
      · rw [if_pos hrole] at hnew ⊢
        have hfree : ¬ (ops.any fun x => x.role == op.role) = true := by
          intro hany
          obtain ⟨held, hheld, hsame⟩ := List.any_eq_true.1 hany
          exact List.countP_eq_zero.1 h held hheld (hrole ▸ hsame)
        have hheld : countRole r (ops ++ [op]) ≠ 0 := by
          rw [countRole_append, countRole_cons, if_pos hrole]
          omega
        rw [if_neg hfree, countRole_cons, if_pos hrole, countRole_taken_of_held hheld]
        omega
      · rw [if_neg hrole] at hnew ⊢
        have hfree : countRole r (ops ++ [op]) = 0 := by
          rw [countRole_append, h, countRole_cons, if_neg hrole]
          rfl
        split
        · exact ih h hnew
        · rw [countRole_cons, if_neg hrole, ih hfree hnew]

theorem countRole_revise_item (hitem : v.isItem = true) (r : String) :
    countRole r (operationsAt (v.revise c nodes) v.segments) =
      countRole r (v.carried nodes) + countRole r (v.operations c) := by
  rw [Visit.operationsAt_revise_self, Visit.added_of_isItem hitem, countRole_append]

theorem countRole_revise_bare (hn : c.methods.Nodup) (hbare : v.isItem = false) (r : String) :
    countRole r (operationsAt (v.revise c nodes) v.segments) =
      if countRole r (operationsAt nodes v.segments) = 0 then countRole r (v.operations c)
      else countRole r (operationsAt nodes v.segments) := by
  rw [Visit.operationsAt_revise_self, Visit.added_of_bare hbare hn, Visit.carried_of_bare hbare,
    countRole_append]
  split
  · next hfree =>
      rw [countRole_taken_of_free hfree (countRole_operations_le hn r), hfree, Nat.zero_add]
  · next hheld => rw [countRole_taken_of_held hheld, Nat.add_zero]

/-! ## What is carried over -/

theorem eq_of_lookup_eq {m' : String} (h : collectionRoles.lookup m = some role)
    (h' : collectionRoles.lookup m' = some role) : m' = m := by
  rcases eq_of_lookup_collectionRoles h with ⟨rfl, rfl⟩ | ⟨rfl, rfl⟩
  · rcases eq_of_lookup_collectionRoles h' with ⟨rfl, -⟩ | ⟨-, h⟩
    · rfl
    · exact absurd h (by decide)
  · rcases eq_of_lookup_collectionRoles h' with ⟨-, h⟩ | ⟨rfl, -⟩
    · exact absurd h (by decide)
    · rfl

/-- A role that is neither replaced nor given is carried over as it is. -/
theorem countRole_carried_of_plain (h : Singular (operationsAt nodes v.segments))
    (hnone : collectionRoles.lookup r = none) (hfree : ∀ m, collectionRoles.lookup m ≠ some r) :
    countRole r (v.carried nodes) = countRole r (operationsAt nodes v.segments) := by
  rw [carried_eq_map h, countRole, List.countP_map]
  refine List.countP_congr fun op _ => ?_
  rw [Function.comp_apply, beq_iff_eq, beq_iff_eq, roleAfter]
  split
  · cases hl : collectionRoles.lookup op.role with
    | none => rfl
    | some given =>
        rw [Option.getD_some]
        refine iff_of_false ?_ ?_
        · rintro rfl
          exact hfree _ hl
        · rintro heq
          rw [heq, hnone] at hl
          cases hl
  · rfl

/-- A collection role goes to what has the method for a role, if an item repeats the method. -/
theorem countRole_carried_of_given (h : Singular (operationsAt nodes v.segments))
    (hrole : collectionRoles.lookup m = some role) :
    countRole role (v.carried nodes) = countRole role (operationsAt nodes v.segments) +
      if v.repeats v.segments m then countRole m (operationsAt nodes v.segments) else 0 := by
  have hlast := lookup_of_lookup_collectionRoles hrole
  have hne : m ≠ role := by
    rintro rfl
    rw [hlast] at hrole
    cases hrole
  have hafter : ∀ x, roleAfter [v] v.segments x = role ↔
      x = role ∨ x = m ∧ v.repeats v.segments m = true := by
    intro x
    rw [roleAfter, List.any_cons, List.any_nil, Bool.or_false]
    split
    · next hrepeats =>
        cases hl : collectionRoles.lookup x with
        | none =>
            rw [Option.getD_none]
            refine ⟨Or.inl, fun hx => hx.elim id ?_⟩
            rintro ⟨rfl, -⟩
            rw [hl] at hrole
            cases hrole
        | some given =>
            rw [Option.getD_some]
            constructor
            · rintro rfl
              obtain rfl := eq_of_lookup_eq hrole hl
              exact Or.inr ⟨rfl, hrepeats⟩
            · rintro (rfl | ⟨rfl, -⟩)
              · rw [hlast] at hl
                cases hl
              · exact Option.some.inj (hl.symm.trans hrole)
    · next hrepeats =>
        refine ⟨Or.inl, fun hx => hx.elim id ?_⟩
        rintro ⟨rfl, hx⟩
        exact absurd hx hrepeats
  rw [carried_eq_map h]
  induction operationsAt nodes v.segments with
  | nil => split <;> rfl
  | cons op rest ih =>
      rw [List.map_cons, countRole_cons, countRole_cons, countRole_cons, ih]
      simp only [hafter]
      by_cases hgiven : op.role = role
      · have hother : op.role ≠ m := fun heq => hne (heq.symm.trans hgiven)
        simp only [hgiven, true_or, if_true, hne.symm, if_false, Nat.add_zero]
        omega
      · by_cases hmethod : op.role = m
        · simp only [hmethod, hne, false_or, true_and, if_true, if_false]
          split <;> omega
        · simp only [hgiven, hmethod, false_or, false_and, if_false, Nat.add_zero]

/-! ## Methods without a collection role -/

theorem singular_run_nil (hn : c.methods.Nodup) (vs : List Visit) (s : List String) :
    Singular (operationsAt (run c vs []) s) := by
  have hnil : ∀ t, Singular (operationsAt [] t) := fun _ => singular_nil
  exact singular_run hn hnil vs s

/-- Whether one of some visits, to an item, finds a method that a visit before it finds as well. -/
def RepeatedByItem (c : Conventions) (vs : List Visit) (m : String) : Prop :=
  ∃ before v after, vs = before ++ v :: after ∧ v.isItem = true ∧ v.Finds c m ∧
    ∃ u ∈ before, u.Finds c m

theorem repeatedByItem_concat :
    RepeatedByItem c (vs ++ [v]) m ↔
      RepeatedByItem c vs m ∨ v.isItem = true ∧ v.Finds c m ∧ ∃ u ∈ vs, u.Finds c m := by
  constructor
  · rintro ⟨before, w, after, hsplit, hw⟩
    rcases List.eq_nil_or_concat after with rfl | ⟨after, last, rfl⟩
    · obtain ⟨rfl, hlast⟩ := List.append_inj' hsplit rfl
      obtain rfl := List.singleton_inj.1 hlast
      exact Or.inr hw
    · rw [List.concat_eq_append, ← List.cons_append, ← List.append_assoc] at hsplit
      exact Or.inl ⟨before, w, after, (List.append_inj' hsplit rfl).1, hw⟩
  · rintro (⟨before, w, after, rfl, hw⟩ | hv)
    · exact ⟨before, w, after ++ [v], by rw [List.append_assoc, List.cons_append], hw⟩
    · exact ⟨vs, v, [], rfl, hv⟩

theorem exists_mem_concat {p : Visit → Prop} : (∃ u ∈ vs ++ [v], p u) ↔ (∃ u ∈ vs, p u) ∨ p v := by
  simp [or_and_right, exists_or]

theorem countRole_run_plain (hn : c.methods.Nodup) (hnone : collectionRoles.lookup m = none)
    (hfree : ∀ x, collectionRoles.lookup x ≠ some m) (hvs : ∀ v ∈ vs, v.segments = s) :
    (0 < countRole m (operationsAt (run c vs []) s) ↔ ∃ u ∈ vs, u.Finds c m) ∧
      (1 < countRole m (operationsAt (run c vs []) s) ↔ RepeatedByItem c vs m) := by
  induction vs using List.reverseRecOn with
  | nil =>
      have hheld : countRole m (operationsAt (run c [] []) s) = 0 := rfl
      rw [hheld]
      exact ⟨by simp, by simp [RepeatedByItem]⟩
  | append_singleton vs v ih =>
      obtain ⟨hpos, htwo⟩ := ih fun u hu => hvs u (List.mem_append_left _ hu)
      obtain rfl := hvs v (List.mem_append_right _ List.mem_cons_self)
      have hsingular := singular_run_nil hn vs v.segments
      have hle : countRole m (v.operations c) ≤ 1 := countRole_operations_le hn m
      rw [run_concat, exists_mem_concat, repeatedByItem_concat, ← hpos, ← htwo, Visit.finds_iff]
      cases hitem : v.isItem with
      | true =>
          rw [countRole_revise_item hitem, countRole_carried_of_plain hsingular hnone hfree]
          constructor
          · omega
          · simp only [true_and]
            omega
      | false =>
          rw [countRole_revise_bare hn hitem]
          simp only [Bool.false_eq_true, false_and, or_false]
          split
          · omega
          · omega

/-! ## Methods with a collection role -/

/-- Whether one of some visits, to an item that has a method for a key, comes after a visit that
finds the method. -/
def Relabelled (c : Conventions) (vs : List Visit) (m : String) : Prop :=
  ∃ before z after, vs = before ++ z :: after ∧ z.repeats z.segments m = true ∧
    ∃ u ∈ before, u.Finds c m

/-- Whether such an item is one that finds the method again, or is followed by a visit that does. -/
def FoundAgain (c : Conventions) (vs : List Visit) (m : String) : Prop :=
  ∃ before z after, vs = before ++ z :: after ∧ z.repeats z.segments m = true ∧
    (∃ u ∈ before, u.Finds c m) ∧ ∃ w ∈ z :: after, w.Finds c m

/-- Whether another item that has the method for a key follows. -/
def RelabelledTwice (c : Conventions) (vs : List Visit) (m : String) : Prop :=
  ∃ before z after, vs = before ++ z :: after ∧ z.repeats z.segments m = true ∧
    FoundAgain c before m

theorem Relabelled.concat (h : Relabelled c vs m) (v : Visit) : Relabelled c (vs ++ [v]) m := by
  obtain ⟨before, z, after, rfl, hz⟩ := h
  exact ⟨before, z, after ++ [v], List.append_assoc .., hz⟩

theorem FoundAgain.concat (h : FoundAgain c vs m) (v : Visit) : FoundAgain c (vs ++ [v]) m := by
  obtain ⟨before, z, after, rfl, hz, hbefore, w, hw, hfinds⟩ := h
  exact ⟨before, z, after ++ [v], List.append_assoc .., hz, hbefore, w,
    List.mem_append_left [v] hw, hfinds⟩

theorem RelabelledTwice.concat (h : RelabelledTwice c vs m) (v : Visit) :
    RelabelledTwice c (vs ++ [v]) m := by
  obtain ⟨before, z, after, rfl, hz⟩ := h
  exact ⟨before, z, after ++ [v], List.append_assoc .., hz⟩

theorem Relabelled.foundAgain (h : Relabelled c vs m) (hv : v.Finds c m) :
    FoundAgain c (vs ++ [v]) m := by
  obtain ⟨before, z, after, rfl, hz, hbefore⟩ := h
  exact ⟨before, z, after ++ [v], List.append_assoc .., hz, hbefore, v,
    List.mem_append_right (z :: after) List.mem_cons_self, hv⟩

section Given

variable (hn : c.methods.Nodup) (hrole : collectionRoles.lookup m = some role)
  (hgiven : role ∉ c.methods)

include hrole hgiven

theorem countRole_revise_of_repeats (h : Singular (operationsAt nodes v.segments))
    (hrepeats : v.repeats v.segments m = true) :
    countRole m (operationsAt (v.revise c nodes) v.segments) = countRole m (v.operations c) ∧
      countRole role (operationsAt (v.revise c nodes) v.segments) =
        countRole role (operationsAt nodes v.segments) +
          countRole m (operationsAt nodes v.segments) := by
  have hitem : v.isItem = true := by
    rw [Visit.repeats, beq_self_eq_true, Bool.true_and, Bool.and_eq_true] at hrepeats
    exact hrepeats.1
  have hsome : (collectionRoles.lookup m).isSome = true := by rw [hrole]; rfl
  rw [countRole_revise_item hitem, countRole_revise_item hitem, countRole_carried h hsome,
    countRole_carried_of_given h hrole, if_pos hrepeats, if_pos hrepeats, Nat.zero_add,
    countRole_operations_of_not_mem hgiven, Nat.add_zero]
  exact ⟨rfl, rfl⟩

include hn

theorem countRole_revise_of_not_repeats (h : Singular (operationsAt nodes v.segments))
    (hrepeats : v.repeats v.segments m = false) :
    countRole m (operationsAt (v.revise c nodes) v.segments) =
        (if countRole m (operationsAt nodes v.segments) = 0 then countRole m (v.operations c)
        else countRole m (operationsAt nodes v.segments)) ∧
      countRole role (operationsAt (v.revise c nodes) v.segments) =
        countRole role (operationsAt nodes v.segments) := by
  cases hitem : v.isItem with
  | true =>
      have hsome : (collectionRoles.lookup m).isSome = true := by rw [hrole]; rfl
      have hkey : Members.has v.item (.str m) = false := by
        rwa [Visit.repeats, beq_self_eq_true, hitem, Bool.true_and] at hrepeats
      rw [countRole_revise_item hitem, countRole_revise_item hitem, countRole_carried h hsome,
        countRole_carried_of_given h hrole, hrepeats, countRole_operations_eq_zero hkey,
        countRole_operations_of_not_mem hgiven]
      simp only [Bool.false_eq_true, if_false, Nat.add_zero, and_true]
      split
      · assumption
      · rfl
  | false =>
      rw [countRole_revise_bare hn hitem, countRole_revise_bare hn hitem,
        countRole_operations_of_not_mem hgiven]
      refine ⟨rfl, ?_⟩
      split
      · next hzero => exact hzero.symm
      · rfl

/-- What the numbers of operations with a method and with its collection role say of the visits.
The third of these facts is what the fourth needs before an item repeats the method. -/
theorem relabelled_of_countRole (hvs : ∀ v ∈ vs, v.segments = s) :
    (0 < countRole m (operationsAt (run c vs []) s) → ∃ u ∈ vs, u.Finds c m) ∧
    (0 < countRole role (operationsAt (run c vs []) s) → Relabelled c vs m) ∧
    (0 < countRole role (operationsAt (run c vs []) s) →
      0 < countRole m (operationsAt (run c vs []) s) → FoundAgain c vs m) ∧
    (1 < countRole role (operationsAt (run c vs []) s) → RelabelledTwice c vs m) := by
  induction vs using List.reverseRecOn with
  | nil =>
      have hheld : ∀ x, countRole x (operationsAt (run c [] []) s) = 0 := fun _ => rfl
      simp [hheld]
  | append_singleton vs v ih =>
      obtain ⟨hfound, hrelabelled, hagain, htwice⟩ :=
        ih fun u hu => hvs u (List.mem_append_left _ hu)
      obtain rfl := hvs v (List.mem_append_right _ List.mem_cons_self)
      have hsingular := singular_run_nil hn vs v.segments
      have hone := hsingular m (by rw [hrole]; rfl)
      have hfinds : 0 < countRole m (v.operations c) → v.Finds c m := Visit.finds_iff.2
      rw [run_concat]
      cases hrepeats : v.repeats v.segments m with
      | true =>
          obtain ⟨hm, hr⟩ := countRole_revise_of_repeats hrole hgiven hsingular hrepeats
          rw [hm, hr]
          -- Something gets the collection role now, or something has it already.
          have hearlier : 0 < countRole role (operationsAt (run c vs []) v.segments) +
              countRole m (operationsAt (run c vs []) v.segments) → ∃ u ∈ vs, u.Finds c m := by
            intro hpos
            by_cases hheld : 0 < countRole m (operationsAt (run c vs []) v.segments)
            · exact hfound hheld
            · obtain ⟨before, z, after, rfl, -, u, hu, hfind⟩ := hrelabelled (by omega)
              exact ⟨u, List.mem_append_left _ hu, hfind⟩
          refine ⟨fun hpos => ?_, fun hpos => ?_, fun hpos hnew => ?_, fun htwo => ?_⟩
          · exact ⟨v, List.mem_append_right _ List.mem_cons_self, hfinds hpos⟩
          · exact ⟨vs, v, [], rfl, hrepeats, hearlier hpos⟩
          · exact ⟨vs, v, [], rfl, hrepeats, hearlier hpos, v, List.mem_cons_self, hfinds hnew⟩
          · by_cases hold : 1 < countRole role (operationsAt (run c vs []) v.segments)
            · exact (htwice hold).concat v
            · exact ⟨vs, v, [], rfl, hrepeats, hagain (by omega) (by omega)⟩
      | false =>
          obtain ⟨hm, hr⟩ := countRole_revise_of_not_repeats hn hrole hgiven hsingular hrepeats
          rw [hm, hr]
          refine ⟨fun hpos => ?_, fun hpos => (hrelabelled hpos).concat v, fun hpos hheld => ?_,
            fun htwo => (htwice htwo).concat v⟩
          · split at hpos
            · exact ⟨v, List.mem_append_right _ List.mem_cons_self, hfinds hpos⟩
            · next hold =>
                obtain ⟨u, hu, hfind⟩ := hfound (Nat.pos_of_ne_zero hold)
                exact ⟨u, List.mem_append_left _ hu, hfind⟩
          · split at hheld
            · exact (hrelabelled hpos).foundAgain (hfinds hheld)
            · next hold => exact (hagain hpos (Nat.pos_of_ne_zero hold)).concat v

end Given

/-! ## Looking operations up by their roles -/

theorem method_mem_of_mem_operationsAt_run {op : Operation}
    (h : op ∈ operationsAt (run c vs []) s) : op.method ∈ c.methods := by
  rcases mem_operationsAt_run h with ⟨_, hnil, -⟩ | ⟨x, hx, -, hbecomes⟩
  · cases hnil
  · have hmethod := Visit.method_mem (operation_mem_of_mem_extractions hx)
    cases hbecomes with
    | kept => exact hmethod
    | replaced => exact hmethod

theorem nodup_map_role (h : ∀ r, countRole r ops ≤ 1) : (ops.map Operation.role).Nodup := by
  refine List.nodup_iff_count.2 fun r => ?_
  rw [List.count, List.countP_map]
  exact h r

/-- Where no role is held twice, looking for the role of an operation finds this operation. -/
theorem findOperation_role {n : Node} {op : Operation} (h : (n.operations.map Operation.role).Nodup)
    (hop : op ∈ n.operations) : n.findOperation op.role = some op := by
  unfold Node.findOperation
  cases hfind : n.operations.find? fun x => x.role == op.role with
  | none => exact absurd (beq_self_eq_true op.role) (List.find?_eq_none.1 hfind op hop)
  | some found =>
      have hrole : found.role = op.role := by simpa using List.find?_some hfind
      rw [List.inj_on_of_nodup_map h (List.mem_of_find?_eq_some hfind) hop hrole]

/-- No two operations of a merged node have a role that the merge replaces. A method that has no
collection role is the role of two operations exactly if an item repeats it, and a collection role
is that of two only if two items give it. Elsewhere, each operation is the one with its role. -/
theorem roles_unique_unless_repeated {c : Conventions} {paths : Members} {nodes : List Node}
    (hverbs : c.methods ⊆ Conventions.defaultMethods) (hn : c.methods.Nodup)
    (h : (merge c paths).result = .ok nodes) :
    ∀ n ∈ nodes,
      (∀ m role, collectionRoles.lookup m = some role →
        countRole m n.operations ≤ 1 ∧
        (1 < countRole role n.operations →
          RelabelledTwice c (visitsAt (visits c (ordered paths)) n.segments) m)) ∧
      (∀ m ∈ c.methods, collectionRoles.lookup m = none →
        (1 < countRole m n.operations ↔
          RepeatedByItem c (visitsAt (visits c (ordered paths)) n.segments) m)) ∧
      ((∀ m ∈ c.methods, collectionRoles.lookup m = none →
          ¬ RepeatedByItem c (visitsAt (visits c (ordered paths)) n.segments) m) →
        (∀ m ∈ c.methods, collectionRoles.lookup m ≠ none →
          ¬ RelabelledTwice c (visitsAt (visits c (ordered paths)) n.segments) m) →
        (n.operations.map Operation.role).Nodup ∧
          ∀ op ∈ n.operations, n.findOperation op.role = some op) := by
  intro n hnode
  obtain ⟨-, hrun, -⟩ := merge_ok h
  have hops := operationsAt_of_mem (isTable_merge h).keyed hnode
  rw [hrun, operationsAt_run_visitsAt] at hops
  have hfree := rolesAreFree_of_subset hverbs
  have hvs : ∀ v ∈ visitsAt (visits c (ordered paths)) n.segments, v.segments = n.segments :=
    fun v hv => (mem_visitsAt.1 hv).2
  have hgiven : ∀ m role, collectionRoles.lookup m = some role →
      countRole m n.operations ≤ 1 ∧ (1 < countRole role n.operations →
        RelabelledTwice c (visitsAt (visits c (ordered paths)) n.segments) m) := by
    intro m role hrole
    rw [← hops]
    have hnot : role ∉ c.methods := fun hmem => hfree role hmem m hrole
    exact ⟨singular_run_nil hn _ _ m (by rw [hrole]; rfl),
      (relabelled_of_countRole hn hrole hnot hvs).2.2.2⟩
  have hplain : ∀ m ∈ c.methods, collectionRoles.lookup m = none →
      (1 < countRole m n.operations ↔
        RepeatedByItem c (visitsAt (visits c (ordered paths)) n.segments) m) := by
    intro m hm hnone
    rw [← hops]
    exact (countRole_run_plain hn hnone (hfree m hm) hvs).2
  refine ⟨hgiven, hplain, fun hrepeated hrelabelled => ?_⟩
  have hone : ∀ r, countRole r n.operations ≤ 1 := by
    intro r
    by_contra htwo
    have htwo : 1 < countRole r n.operations := Nat.lt_of_not_le htwo
    obtain ⟨op, hop, hr⟩ := List.countP_pos_iff.1 (Nat.lt_of_succ_lt htwo)
    obtain rfl := beq_iff_eq.1 hr
    rw [← hops] at hop
    have hmem := method_mem_of_mem_operationsAt_run hop
    rcases role_of_mem_operationsAt_run hop with hmethod | hlookup
    · rw [hmethod] at htwo
      cases hl : collectionRoles.lookup op.method with
      | none => exact hrepeated op.method hmem hl ((hplain op.method hmem hl).1 htwo)
      | some role => exact absurd htwo (Nat.not_lt.2 (hgiven op.method role hl).1)
    · have htwice := (hgiven op.method op.role hlookup).2 htwo
      exact hrelabelled op.method hmem (by rw [hlookup]; exact Option.some_ne_none _) htwice
  have hnodup := nodup_map_role hone
  exact ⟨hnodup, fun op hop => findOperation_role hnodup hop⟩

/-! ## Shelves and carts

The items of the shelves repeat one method, which has a collection role. Those of
the carts repeat one that has none. -/

theorem RelabelledTwice.two_le (h : RelabelledTwice c vs m) :
    2 ≤ vs.countP fun z => z.repeats z.segments m := by
  obtain ⟨_, z, after, rfl, hz, before, z', after', rfl, hz', -⟩ := h
  simp only [List.countP_append, List.countP_cons, hz, hz', if_true]
  omega

def cartPaths : Members :=
  [(.str "/carts", .ofMembers [(.str "post", shelfDefinition "createCart")]),
   (.str "/carts/\x7bid\x7d", .ofMembers [(.str "post", shelfDefinition "updateCart")])]

def cartNode : Node where
  segments := ["carts"]
  parameter := some "id"
  defaultParameter := none
  operations :=
    [shelfOperation "/carts" "post" "post" "createCart",
      shelfOperation "/carts/\x7bid\x7d" "post" "post" "updateCart"]
  endpoint := some "/carts/\x7bid\x7d"

theorem ordered_cartPaths : ordered cartPaths = cartPaths :=
  List.mergeSort_of_pairwise (by decide +kernel)

theorem result_merge_cartPaths : (merge .default cartPaths).result = .ok [cartNode] := by
  have hcollection : Endpoint.ofTemplate Conventions.default.rules "/carts" =
      .ok ⟨"/carts", "/carts"⟩ := by decide +kernel
  have hitem : Endpoint.ofTemplate Conventions.default.rules "/carts/\x7bid\x7d" =
      .ok ⟨"/carts/\x7bid\x7d", "/carts/\x7bid\x7d"⟩ := by decide +kernel
  rw [merge, if_pos (by decide +kernel), ordered_cartPaths, cartPaths]
  simp only [addMembers, addMember, hcollection, hitem]
  rfl

theorem roles_unique_unless_repeated_of_shelves :
    (merge shelfConventions shelfPaths).result = .ok [shelfNode] ∧
      (∀ op ∈ shelfNode.operations, shelfNode.findOperation op.role = some op) ∧
    (merge .default cartPaths).result = .ok [cartNode] ∧
      RepeatedByItem .default (visitsAt (visits .default (ordered cartPaths)) cartNode.segments)
        "post" := by
  obtain ⟨-, hplain, hunique⟩ :=
    roles_unique_unless_repeated (by decide) (by decide) result_merge_shelfPaths shelfNode
      List.mem_cons_self
  have hverbs : Conventions.default.methods ⊆ Conventions.defaultMethods := List.Subset.refl _
  obtain ⟨-, hcarts, -⟩ :=
    roles_unique_unless_repeated hverbs (by decide) result_merge_cartPaths cartNode
      List.mem_cons_self
  have hheld : ∀ m ∈ shelfConventions.methods, ¬ 1 < countRole m shelfNode.operations := by decide
  have hitems : ∀ m ∈ shelfConventions.methods,
      ¬ 2 ≤ (visitsAt (visits shelfConventions (ordered shelfPaths)) shelfNode.segments).countP
        fun z => z.repeats z.segments m := by
    rw [ordered_shelfPaths]
    decide +kernel
  have hnone : ∀ m ∈ shelfConventions.methods, collectionRoles.lookup m = none →
      ¬ RepeatedByItem shelfConventions
        (visitsAt (visits shelfConventions (ordered shelfPaths)) shelfNode.segments) m :=
    fun m hm hplainRole hrepeated => hheld m hm ((hplain m hm hplainRole).2 hrepeated)
  exact ⟨result_merge_shelfPaths, (hunique hnone fun m hm _ h => hitems m hm h.two_le).2,
    result_merge_cartPaths, (hcarts "post" (by decide) rfl).1 (by decide)⟩

/-- The node holds the method in two operations, and looking for the role of the second finds the
first. -/
theorem item_repeats_role :
    Conventions.default.methods.Nodup ∧
    Conventions.default.methods ⊆ Conventions.defaultMethods ∧
    (merge .default cartPaths).result = .ok [cartNode] ∧
    ∃ op ∈ cartNode.operations, cartNode.findOperation op.role ≠ some op := by
  refine ⟨by decide, List.Subset.refl _, result_merge_cartPaths,
    shelfOperation "/carts/\x7bid\x7d" "post" "post" "updateCart",
    List.mem_cons_of_mem _ List.mem_cons_self, fun h => ?_⟩
  have hendpoint := congrArg Operation.endpoint (Option.some.inj h)
  exact absurd hendpoint (by decide)

end ApiOutline.Tree
