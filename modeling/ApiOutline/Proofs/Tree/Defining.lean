import Mathlib.Data.List.Induction
import Mathlib.Order.Bounds.Basic
import ApiOutline.Proofs.Tree.Locality

/-!
# The template that defines a node

Several templates may share a node, and one of them gives it its endpoint, its
parameter and its place. It is the last one of an item, provided that there
was something to put into the node by then; and if items have no part in it,
it is the first one with an operation (`Defines`).

The list of nodes is in the order of these templates, because it is changed in
two ways only. Either a node is added at its end, for the template that is
visited at that moment, and the older node with its segments is taken out; or
a node gets more operations, and stays where it is and what it is
(`revise_cases`). Positions are those in the list of visits, so that the visit
that comes next has a greater one than all before it.
-/

namespace ApiOutline.Tree

variable {c : Conventions} {v : Visit} {vs : List Visit} {nodes : List Node} {s : List String}
  {i : Nat}

/-! ## Positions of visits -/

/-- Whether the visit at a position is one to some segments and finds an operation. -/
def YieldsAt (c : Conventions) (vs : List Visit) (s : List String) (i : Nat) : Prop :=
  ∃ v, vs[i]? = some v ∧ v.segments = s ∧ v.operations c ≠ []

/-- Whether the visit at a position is one to an item with some segments, and one of the visits up
to it finds an operation there. -/
def SettlesAt (c : Conventions) (vs : List Visit) (s : List String) (i : Nat) : Prop :=
  (∃ v, vs[i]? = some v ∧ v.segments = s ∧ v.isItem = true) ∧ ∃ j ≤ i, YieldsAt c vs s j

/-- Whether the visit at a position defines the node at some segments: it is the last one that
settles it, or, where none does, the first one that finds an operation. -/
def Defines (c : Conventions) (vs : List Visit) (s : List String) (i : Nat) : Prop :=
  IsGreatest {k | SettlesAt c vs s k} i ∨
    (∀ k, ¬ SettlesAt c vs s k) ∧ IsLeast {k | YieldsAt c vs s k} i

theorem Defines.unique {j : Nat} (hi : Defines c vs s i) (hj : Defines c vs s j) : i = j := by
  rcases hi with hi | ⟨hnone, hi⟩
  · rcases hj with hj | ⟨hnone, -⟩
    · exact hi.unique hj
    · exact absurd hi.1 (hnone i)
  · rcases hj with hj | ⟨-, hj⟩
    · exact absurd hj.1 (hnone j)
    · exact hi.unique hj

theorem YieldsAt.lt (h : YieldsAt c vs s i) : i < vs.length := by
  obtain ⟨v, hv, -⟩ := h
  exact (List.getElem?_eq_some_iff.1 hv).1

theorem SettlesAt.lt (h : SettlesAt c vs s i) : i < vs.length := by
  obtain ⟨⟨v, hv, -⟩, -⟩ := h
  exact (List.getElem?_eq_some_iff.1 hv).1

theorem Defines.lt (h : Defines c vs s i) : i < vs.length := by
  rcases h with h | ⟨-, h⟩
  · exact SettlesAt.lt h.1
  · exact YieldsAt.lt h.1

theorem exists_yieldsAt_iff :
    (∃ i, YieldsAt c vs s i) ↔ (nodeAt (run c vs []) s).isSome = true := by
  rw [nodeAt_run_isSome]
  constructor
  · rintro ⟨i, v, hv, hs, hops⟩
    exact ⟨v, List.mem_of_getElem? hv, hs, hops⟩
  · rintro ⟨v, hv, hs, hops⟩
    obtain ⟨i, hi⟩ := List.getElem?_of_mem hv
    exact ⟨i, v, hi, hs, hops⟩

/-! ## One more visit -/

theorem getElem?_concat_eq_some {w : Visit} :
    (vs ++ [v])[i]? = some w ↔ vs[i]? = some w ∨ i = vs.length ∧ v = w := by
  rcases Nat.lt_trichotomy i vs.length with hlt | rfl | hgt
  · rw [List.getElem?_append_left hlt]
    simp [Nat.ne_of_lt hlt]
  · simp
  · have hnone : vs[i]? = none := List.getElem?_eq_none (by omega)
    have hnone' : (vs ++ [v])[i]? = none := List.getElem?_eq_none (by simp; omega)
    simp [hnone, hnone', Nat.ne_of_gt hgt]

theorem yieldsAt_concat :
    YieldsAt c (vs ++ [v]) s i ↔
      YieldsAt c vs s i ∨ i = vs.length ∧ v.segments = s ∧ v.operations c ≠ [] := by
  unfold YieldsAt
  simp only [getElem?_concat_eq_some]
  constructor
  · rintro ⟨w, hw | ⟨hi, rfl⟩, hrest⟩
    · exact Or.inl ⟨w, hw, hrest⟩
    · exact Or.inr ⟨hi, hrest⟩
  · rintro (⟨w, hw, hrest⟩ | ⟨hi, hrest⟩)
    · exact ⟨w, Or.inl hw, hrest⟩
    · exact ⟨v, Or.inr ⟨hi, rfl⟩, hrest⟩

theorem settlesAt_concat :
    SettlesAt c (vs ++ [v]) s i ↔
      SettlesAt c vs s i ∨ i = vs.length ∧ v.segments = s ∧ v.isItem = true ∧
        ((∃ j, YieldsAt c vs s j) ∨ v.operations c ≠ []) := by
  unfold SettlesAt
  simp only [getElem?_concat_eq_some, yieldsAt_concat]
  constructor
  · rintro ⟨⟨w, hw | ⟨rfl, rfl⟩, hs, hitem⟩, j, hj, hyields⟩
    · have hi : i < vs.length := (List.getElem?_eq_some_iff.1 hw).1
      rcases hyields with hyields | ⟨rfl, -⟩
      · exact Or.inl ⟨⟨w, hw, hs, hitem⟩, j, hj, hyields⟩
      · omega
    · refine Or.inr ⟨rfl, hs, hitem, ?_⟩
      exact hyields.imp (fun h => ⟨j, h⟩) fun h => h.2.2
  · rintro (⟨⟨w, hw, hs, hitem⟩, j, hj, hyields⟩ | ⟨rfl, hs, hitem, hyields⟩)
    · exact ⟨⟨w, Or.inl hw, hs, hitem⟩, j, hj, Or.inl hyields⟩
    · refine ⟨⟨v, Or.inr ⟨rfl, rfl⟩, hs, hitem⟩, ?_⟩
      rcases hyields with ⟨j, hj⟩ | hops
      · exact ⟨j, Nat.le_of_lt hj.lt, Or.inl hj⟩
      · exact ⟨vs.length, Nat.le_refl _, Or.inr ⟨rfl, hs, hops⟩⟩

/-- What defines a node is not affected by a visit elsewhere. -/
theorem defines_concat_of_ne (h : v.segments ≠ s) :
    Defines c (vs ++ [v]) s i ↔ Defines c vs s i := by
  simp only [Defines, settlesAt_concat, yieldsAt_concat, h, false_and, and_false, or_false]

/-- Nor is it by a bare template, once there is an operation. -/
theorem defines_concat_of_bare (hbare : v.isItem = false) (hsome : ∃ j, YieldsAt c vs s j) :
    Defines c (vs ++ [v]) s i ↔ Defines c vs s i := by
  have hleast : IsLeast {k | YieldsAt c (vs ++ [v]) s k} i ↔ IsLeast {k | YieldsAt c vs s k} i := by
    obtain ⟨j, hj⟩ := hsome
    constructor
    · rintro ⟨hi, hle⟩
      refine ⟨?_, fun k hk => hle (yieldsAt_concat.2 (Or.inl hk))⟩
      refine (yieldsAt_concat.1 hi).resolve_right fun hlast => ?_
      have hij : i ≤ j := hle (yieldsAt_concat.2 (Or.inl hj))
      have := hj.lt
      omega
    · rintro ⟨hi, hle⟩
      refine ⟨yieldsAt_concat.2 (Or.inl hi), fun k hk => ?_⟩
      rcases yieldsAt_concat.1 hk with hk | ⟨rfl, -⟩
      · exact hle hk
      · exact Nat.le_of_lt (YieldsAt.lt hi)
  have hsettles : ∀ k, SettlesAt c (vs ++ [v]) s k ↔ SettlesAt c vs s k := by
    intro k
    rw [settlesAt_concat, hbare]
    simp
  simp only [Defines, hsettles, hleast]

/-- An item defines its node, if there is anything to put into it. -/
theorem defines_concat_of_isItem (hitem : v.isItem = true)
    (hsome : (∃ j, YieldsAt c vs v.segments j) ∨ v.operations c ≠ []) :
    Defines c (vs ++ [v]) v.segments vs.length := by
  refine Or.inl ⟨settlesAt_concat.2 (Or.inr ⟨rfl, rfl, hitem, hsome⟩), fun k hk => ?_⟩
  have hlt := SettlesAt.lt hk
  rw [List.length_append, List.length_singleton] at hlt
  omega

/-- The first template with an operation defines its node. -/
theorem defines_concat_of_first (hnone : ¬ ∃ j, YieldsAt c vs v.segments j)
    (hops : v.operations c ≠ []) : Defines c (vs ++ [v]) v.segments vs.length := by
  cases hitem : v.isItem with
  | true => exact defines_concat_of_isItem hitem (Or.inr hops)
  | false =>
      refine Or.inr ⟨fun k hk => ?_, yieldsAt_concat.2 (Or.inr ⟨rfl, rfl, hops⟩), fun k hk => ?_⟩
      · rcases settlesAt_concat.1 hk with ⟨-, j, -, hj⟩ | ⟨-, -, hcontra, -⟩
        · exact hnone ⟨j, hj⟩
        · rw [hitem] at hcontra
          cases hcontra
      · rcases yieldsAt_concat.1 hk with hk | ⟨rfl, -⟩
        · exact absurd ⟨k, hk⟩ hnone
        · exact Nat.le_refl _

/-! ## What a visit does to the list of nodes -/

/-- A visit that finds nothing where there is no node changes nothing. Otherwise it makes a node at
the end of the list, or, if it is to a bare template, adds to the node that is there. -/
theorem revise_cases (h : IsTable nodes) (v : Visit) :
    (nodeAt nodes v.segments = none ∧ v.operations c = [] ∧ v.revise c nodes = nodes) ∨
    (∃ ops, v.revise c nodes =
        without nodes v.segments ++ [{ freshNode c v.endpoint with operations := ops }]) ∧
      ((nodeAt nodes v.segments = none ∧ v.operations c ≠ []) ∨
        (nodeAt nodes v.segments).isSome = true ∧ v.isItem = true) ∨
    ∃ n ops, nodeAt nodes v.segments = some n ∧ v.isItem = false ∧
      v.revise c nodes = put nodes { n with operations := ops } := by
  cases hnode : nodeAt nodes v.segments with
  | none =>
      have hcleared : v.cleared nodes = nodes := by
        rw [Visit.cleared, without_of_nodeAt_eq_none hnode, ite_self]
      by_cases hops : v.operations c = []
      · refine Or.inl ⟨rfl, hops, ?_⟩
        rw [Visit.revise, Visit.carried_append_added_eq_nil.2 ⟨operationsAt_eq_nil hnode, hops⟩,
          store_nil, hcleared]
      · have hne : v.carried nodes ++ v.added c nodes ≠ [] := fun hnil =>
          hops (Visit.carried_append_added_eq_nil.1 hnil).2
        have hbase : v.base c nodes = freshNode c v.endpoint := by
          rw [Visit.base, hnode, Option.getD_none, ite_self]
        refine Or.inr (Or.inl ⟨⟨v.carried nodes ++ v.added c nodes, ?_⟩, Or.inl ⟨rfl, hops⟩⟩)
        rw [Visit.revise, store_of_ne_nil _ _ hne, hcleared, hbase,
          without_of_nodeAt_eq_none hnode]
        exact put_of_nodeAt_eq_none hnode
  | some n =>
      have hne : v.carried nodes ++ v.added c nodes ≠ [] := by
        intro hnil
        have hempty := (Visit.carried_append_added_eq_nil.1 hnil).1
        rw [operationsAt_of_nodeAt hnode] at hempty
        exact h.full n (mem_of_nodeAt hnode) hempty
      rw [Visit.revise, store_of_ne_nil _ _ hne, Visit.cleared, Visit.base]
      cases hitem : v.isItem with
      | true =>
          refine Or.inr (Or.inl ⟨⟨v.carried nodes ++ v.added c nodes, ?_⟩, Or.inr ⟨rfl, rfl⟩⟩)
          exact put_of_nodeAt_eq_none (nodeAt_without_self nodes v.segments)
      | false =>
          refine Or.inr (Or.inr ⟨n, v.carried nodes ++ v.added c nodes, rfl, rfl, ?_⟩)
          rw [hnode]
          rfl

/-! ## The order of the nodes -/

/-- Whether a node is what its endpoint makes it, but for its operations. -/
structure IsNodeOf (c : Conventions) (e : Endpoint) (n : Node) : Prop where
  endpoint_eq : n.endpoint = some e.template
  parameter_eq : n.parameter = e.parameter
  defaultParameter_eq : n.defaultParameter = e.defaultParameter c

/-- Whether what defines the node at some segments is visited before what defines another one. -/
def DefinedBefore (c : Conventions) (vs : List Visit) (s t : List String) : Prop :=
  ∀ i j, Defines c vs s i → Defines c vs t j → i < j

/-- What holds of the nodes after some visits: each has a visit that defines it, and they are in the
order of these visits. -/
structure InOrder (c : Conventions) (vs : List Visit) (nodes : List Node) : Prop where
  defined : ∀ n ∈ nodes, ∃ i v,
    Defines c vs n.segments i ∧ vs[i]? = some v ∧ IsNodeOf c v.endpoint n
  ascending : (nodes.map Node.segments).Pairwise (DefinedBefore c vs)

theorem inOrder_nil : InOrder c [] [] :=
  ⟨fun _ h => (List.not_mem_nil h).elim, List.Pairwise.nil⟩

/-- Nodes that a visit does not define stay in order. -/
theorem InOrder.concat (h : InOrder c vs nodes)
    (hsame : ∀ n ∈ nodes, ∀ i, Defines c (vs ++ [v]) n.segments i ↔ Defines c vs n.segments i) :
    InOrder c (vs ++ [v]) nodes where
  defined := by
    intro n hn
    obtain ⟨i, w, hi, hw, hnode⟩ := h.defined n hn
    exact ⟨i, w, (hsame n hn i).2 hi, getElem?_concat_eq_some.2 (Or.inl hw), hnode⟩
  ascending := by
    refine h.ascending.imp_of_mem fun hs ht hlt i j hi hj => ?_
    obtain ⟨n, hn, rfl⟩ := List.mem_map.1 hs
    obtain ⟨m, hm, rfl⟩ := List.mem_map.1 ht
    exact hlt i j ((hsame n hn i).1 hi) ((hsame m hm j).1 hj)

theorem InOrder.without (h : InOrder c vs nodes) (s : List String) :
    InOrder c vs (without nodes s) where
  defined n hn := h.defined n (mem_without.1 hn).1
  ascending := h.ascending.sublist (List.filter_sublist.map Node.segments)

/-- A node that is defined by the last visit stands at the end. -/
theorem InOrder.append {n : Node} (h : InOrder c (vs ++ [v]) nodes)
    (hother : ∀ m ∈ nodes, m.segments ≠ n.segments)
    (hlast : Defines c (vs ++ [v]) n.segments vs.length) (hs : n.segments = v.segments)
    (hnode : IsNodeOf c v.endpoint n) : InOrder c (vs ++ [v]) (nodes ++ [n]) where
  defined := by
    intro m hm
    rcases List.mem_append.1 hm with hm | hm
    · exact h.defined m hm
    · cases List.mem_singleton.1 hm
      exact ⟨vs.length, v, hlast, getElem?_concat_eq_some.2 (Or.inr ⟨rfl, rfl⟩), hnode⟩
  ascending := by
    rw [List.map_append, List.pairwise_append]
    refine ⟨h.ascending, List.pairwise_singleton _ _, fun t ht u hu i j hi hj => ?_⟩
    obtain ⟨m, hm, rfl⟩ := List.mem_map.1 ht
    cases List.mem_singleton.1 hu
    cases hj.unique hlast
    have hne : v.segments ≠ m.segments := fun heq => hother m hm (heq.symm.trans hs.symm)
    exact ((defines_concat_of_ne hne).1 hi).lt

/-- More operations do not move a node. -/
theorem InOrder.put {n : Node} {ops : List Operation} (h : InOrder c vs nodes)
    (hn : nodeAt nodes n.segments = some n) :
    InOrder c vs (put nodes { n with operations := ops }) where
  defined := by
    intro m hm
    rcases mem_put hm with rfl | hmem
    · obtain ⟨i, w, hi, hw, hnode⟩ := h.defined n (mem_of_nodeAt hn)
      exact ⟨i, w, hi, hw, hnode.endpoint_eq, hnode.parameter_eq, hnode.defaultParameter_eq⟩
    · exact h.defined m hmem
  ascending := by
    have hsame : (Tree.put nodes { n with operations := ops }).map Node.segments =
        nodes.map Node.segments := map_segments_put hn
    rw [hsame]
    exact h.ascending

theorem inOrder_revise (h : InOrder c vs (run c vs [])) (v : Visit) :
    InOrder c (vs ++ [v]) (v.revise c (run c vs [])) := by
  have htable : IsTable (run c vs []) := isTable_run isTable_nil vs
  -- From here on the run matters only for where operations have been found so far.
  generalize hnodes : run c vs [] = nodes at h htable
  have hsome : (∃ j, YieldsAt c vs v.segments j) ↔ (nodeAt nodes v.segments).isSome = true := by
    rw [← hnodes]
    exact exists_yieldsAt_iff
  have helsewhere : InOrder c (vs ++ [v]) (without nodes v.segments) :=
    (h.without v.segments).concat fun n hn i =>
      defines_concat_of_ne fun heq => (mem_without.1 hn).2 heq.symm
  rcases revise_cases (c := c) htable v with
    ⟨hnone, -, hsame⟩ | ⟨⟨ops, hend⟩, hwhy⟩ | ⟨n, ops, hn, hbare, hput⟩
  · -- No node is there, so the list is the one without it, which stays in order.
    rw [hsame, ← without_of_nodeAt_eq_none hnone]
    exact helsewhere
  · have hdefines : Defines c (vs ++ [v]) v.segments vs.length := by
      rcases hwhy with ⟨hnone, hops⟩ | ⟨hnode, hitem⟩
      · refine defines_concat_of_first (fun hj => ?_) hops
        rw [hsome, hnone] at hj
        cases hj
      · exact defines_concat_of_isItem hitem (Or.inl (hsome.2 hnode))
    rw [hend]
    exact helsewhere.append (fun m hm => (mem_without.1 hm).2) hdefines rfl ⟨rfl, rfl, rfl⟩
  · have hs : n.segments = v.segments := segments_of_nodeAt hn
    have hyields : ∃ j, YieldsAt c vs v.segments j := hsome.2 (by rw [hn]; rfl)
    have hkept : InOrder c (vs ++ [v]) nodes := by
      refine h.concat fun m _ i => ?_
      by_cases hm : v.segments = m.segments
      · rw [← hm]
        exact defines_concat_of_bare hbare hyields
      · exact defines_concat_of_ne hm
    rw [hput]
    exact hkept.put (by rw [hs, hn])

theorem inOrder_run (vs : List Visit) : InOrder c vs (run c vs []) := by
  induction vs using List.reverseRecOn with
  | nil => exact inOrder_nil
  | append_singleton vs v ih =>
      rw [run_concat]
      exact inOrder_revise ih v

/-- Templates are visited from short to long. Each node has one among the visits that defines it,
and takes its endpoint, its parameter and the parameter's default from there. The nodes are in the
order in which the visits that define them are made. -/
theorem merge_orders_nodes_by_definition {c : Conventions} {paths : Members} {nodes : List Node}
    (h : (merge c paths).result = .ok nodes) :
    IsSorting (fun v : Visit => v.endpoint.raw.length) (visits c paths)
      (visits c (ordered paths)) ∧
    (∀ n ∈ nodes, ∃ i v, Defines c (visits c (ordered paths)) n.segments i ∧
      (∀ j, Defines c (visits c (ordered paths)) n.segments j → j = i) ∧
      (visits c (ordered paths))[i]? = some v ∧ n.endpoint = some v.endpoint.template ∧
      n.parameter = v.endpoint.parameter ∧ n.defaultParameter = v.endpoint.defaultParameter c) ∧
    nodes.Pairwise fun n m => ∀ i j, Defines c (visits c (ordered paths)) n.segments i →
      Defines c (visits c (ordered paths)) m.segments j → i < j := by
  obtain ⟨-, hrun, -⟩ := merge_ok h
  have horder : InOrder c (visits c (ordered paths)) nodes := by
    rw [hrun]
    exact inOrder_run _
  refine ⟨isSorting_visits c paths, fun n hn => ?_, List.pairwise_map.1 horder.ascending⟩
  obtain ⟨i, v, hi, hv, hnode⟩ := horder.defined n hn
  exact ⟨i, v, hi, fun j hj => hj.unique hi, hv, hnode.endpoint_eq, hnode.parameter_eq,
    hnode.defaultParameter_eq⟩

/-- The room is declared before the loft, but its node stands where its item is visited. -/
theorem merge_orders_nodes_by_definition_of_house :
    (merge shelfConventions houseLarger).result =
      .ok [houseNode "hall", houseNode "loft", houseItem, houseNode "basement"] ∧
    (∃ i v, Defines shelfConventions (visits shelfConventions (ordered houseLarger)) ["room"] i ∧
      (visits shelfConventions (ordered houseLarger))[i]? = some v ∧
      v.endpoint.template = "/room/{x}" ∧ v.endpoint.parameter = some "x") ∧
    ∀ i j, Defines shelfConventions (visits shelfConventions (ordered houseLarger)) ["loft"] i →
      Defines shelfConventions (visits shelfConventions (ordered houseLarger)) ["room"] j →
      i < j := by
  obtain ⟨-, hdefined, hordered⟩ := merge_orders_nodes_by_definition result_merge_houseLarger
  obtain ⟨i, v, hi, -, hv, hendpoint, hparameter, -⟩ := hdefined houseItem (by simp)
  refine ⟨result_merge_houseLarger, ⟨i, v, hi, hv, ?_, hparameter.symm⟩, ?_⟩
  · exact (Option.some.inj hendpoint).symm
  · exact (List.pairwise_cons.1 (List.pairwise_cons.1 hordered).2).1 houseItem (by simp)

end ApiOutline.Tree
