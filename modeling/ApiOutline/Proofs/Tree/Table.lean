import Mathlib.Data.List.Nodup
import ApiOutline.Tree.Merge

/-!
# Nodes as a table

The merge keeps its nodes in a list, in the order in which they were made, and
asks it only one question: which node has these segments. So the list is a
table keyed by segments, and this file says what each operation on it does to
the answers (`nodeAt`), to the nodes with other segments (`without`) and to
the property that makes it a table, that no two nodes have the same segments.

Where a node stands is immaterial to what is counted over all nodes: up to its
order, a table is the node at some segments and the nodes elsewhere
(`perm_nodeAt_without`), and no operation at those segments touches the rest.
-/

namespace ApiOutline.Tree

/-- No two nodes have the same segments. -/
def Keyed (nodes : List Node) : Prop := (nodes.map Node.segments).Nodup

theorem keyed_nil : Keyed [] := List.nodup_nil

theorem keyed_cons {n : Node} {rest : List Node} :
    Keyed (n :: rest) ↔ (∀ m ∈ rest, m.segments ≠ n.segments) ∧ Keyed rest := by
  unfold Keyed
  rw [List.map_cons, List.nodup_cons]
  simp only [List.mem_map, not_exists, not_and]

theorem nodeAt_cons (n : Node) (rest : List Node) (s : List String) :
    nodeAt (n :: rest) s = if n.segments = s then some n else nodeAt rest s := by
  unfold nodeAt
  rw [List.find?_cons]
  by_cases h : n.segments = s
  · rw [if_pos h, beq_iff_eq.2 h]
  · rw [if_neg h, beq_eq_false_iff_ne.2 h]

theorem segments_of_nodeAt {nodes : List Node} {s : List String} {n : Node}
    (h : nodeAt nodes s = some n) : n.segments = s := by
  have hn := List.find?_some h
  exact beq_iff_eq.1 hn

theorem mem_of_nodeAt {nodes : List Node} {s : List String} {n : Node}
    (h : nodeAt nodes s = some n) : n ∈ nodes :=
  List.mem_of_find?_eq_some h

theorem nodeAt_eq_none {nodes : List Node} {s : List String} :
    nodeAt nodes s = none ↔ ∀ n ∈ nodes, n.segments ≠ s := by
  unfold nodeAt
  rw [List.find?_eq_none]
  simp only [beq_iff_eq, ne_eq]

theorem nodeAt_isSome {nodes : List Node} {s : List String} :
    (nodeAt nodes s).isSome ↔ ∃ n ∈ nodes, n.segments = s := by
  unfold nodeAt
  rw [List.find?_isSome]
  simp only [beq_iff_eq]

/-- In a table, a node is what is found at its segments. -/
theorem nodeAt_of_mem {nodes : List Node} (hk : Keyed nodes) {n : Node} (hn : n ∈ nodes) :
    nodeAt nodes n.segments = some n := by
  induction nodes with
  | nil => cases hn
  | cons m rest ih =>
      obtain ⟨hm, hrest⟩ := keyed_cons.1 hk
      rw [nodeAt_cons]
      rcases List.mem_cons.1 hn with rfl | hmem
      · rw [if_pos rfl]
      · rw [if_neg (Ne.symm (hm n hmem))]
        exact ih hrest hmem

/-! ## Taking nodes out -/

theorem without_cons (n : Node) (rest : List Node) (s : List String) :
    without (n :: rest) s = if n.segments = s then without rest s else n :: without rest s := by
  unfold without
  rw [List.filter_cons]
  by_cases h : n.segments = s <;> simp [h]

theorem mem_without {nodes : List Node} {s : List String} {n : Node} :
    n ∈ without nodes s ↔ n ∈ nodes ∧ n.segments ≠ s := by
  unfold without
  rw [List.mem_filter, bne_iff_ne]

theorem keyed_without {nodes : List Node} (hk : Keyed nodes) (s : List String) :
    Keyed (without nodes s) :=
  List.Nodup.sublist (List.Sublist.map _ List.filter_sublist) hk

theorem nodeAt_without_self (nodes : List Node) (s : List String) :
    nodeAt (without nodes s) s = none :=
  nodeAt_eq_none.2 fun _ hn => (mem_without.1 hn).2

theorem nodeAt_without_of_ne (nodes : List Node) {s t : List String} (h : s ≠ t) :
    nodeAt (without nodes s) t = nodeAt nodes t := by
  induction nodes with
  | nil => rfl
  | cons n rest ih =>
      rw [without_cons, nodeAt_cons]
      split
      · next hn => rw [if_neg (hn ▸ h), ih]
      · rw [nodeAt_cons, ih]

theorem without_of_nodeAt_eq_none {nodes : List Node} {s : List String}
    (h : nodeAt nodes s = none) : without nodes s = nodes := by
  unfold without
  rw [List.filter_eq_self]
  intro n hn
  exact bne_iff_ne.2 (nodeAt_eq_none.1 h n hn)

theorem without_without (nodes : List Node) (s : List String) :
    without (without nodes s) s = without nodes s :=
  without_of_nodeAt_eq_none (nodeAt_without_self nodes s)

theorem without_comm (nodes : List Node) (s t : List String) :
    without (without nodes s) t = without (without nodes t) s :=
  List.filter_comm _ _ nodes

/-- A table is the node at some segments and the nodes elsewhere. -/
theorem perm_nodeAt_without {nodes : List Node} (hk : Keyed nodes) (s : List String) :
    nodes.Perm ((nodeAt nodes s).toList ++ without nodes s) := by
  induction nodes with
  | nil => exact List.Perm.refl _
  | cons n rest ih =>
      obtain ⟨hn, hrest⟩ := keyed_cons.1 hk
      rw [nodeAt_cons, without_cons]
      split
      · next h =>
          -- The head is the node sought; being a table, the rest holds no other.
          have hnone : nodeAt rest s = none := nodeAt_eq_none.2 (h ▸ hn)
          rw [without_of_nodeAt_eq_none hnone]
          exact List.Perm.refl _
      · exact ((ih hrest).cons n).trans List.perm_middle.symm

/-- Tables with the same nodes at the same segments differ in their order only. -/
theorem perm_of_nodeAt_eq {nodes nodes' : List Node} (hk : Keyed nodes) (hk' : Keyed nodes')
    (h : ∀ s, nodeAt nodes s = nodeAt nodes' s) : nodes.Perm nodes' := by
  have hmem : ∀ n, n ∈ nodes ↔ n ∈ nodes' := by
    intro n
    constructor
    · intro hn
      exact mem_of_nodeAt (h n.segments ▸ nodeAt_of_mem hk hn)
    · intro hn
      exact mem_of_nodeAt ((h n.segments).symm ▸ nodeAt_of_mem hk' hn)
  exact (List.perm_ext_iff_of_nodup (List.Nodup.of_map _ hk) (List.Nodup.of_map _ hk')).2 hmem

/-! ## Putting nodes in -/

theorem put_cons (n : Node) (rest : List Node) (node : Node) :
    put (n :: rest) node =
      if n.segments = node.segments then node :: rest else n :: put rest node := by
  rw [put]
  by_cases h : n.segments = node.segments
  · rw [if_pos (beq_iff_eq.2 h), if_pos h]
  · rw [if_neg (fun hb => h (beq_iff_eq.1 hb)), if_neg h]

theorem nodeAt_put_self (nodes : List Node) (node : Node) :
    nodeAt (put nodes node) node.segments = some node := by
  induction nodes with
  | nil => rw [put, nodeAt_cons, if_pos rfl]
  | cons n rest ih =>
      rw [put_cons]
      split
      · rw [nodeAt_cons, if_pos rfl]
      · next h => rw [nodeAt_cons, if_neg h, ih]

theorem without_put (nodes : List Node) (node : Node) :
    without (put nodes node) node.segments = without nodes node.segments := by
  induction nodes with
  | nil => rw [put, without_cons, if_pos rfl]
  | cons n rest ih =>
      rw [put_cons, without_cons n]
      split
      · rw [without_cons, if_pos rfl]
      · next h => rw [without_cons, if_neg h, ih]

theorem without_put_of_ne (nodes : List Node) {node : Node} {s : List String}
    (h : node.segments ≠ s) : without (put nodes node) s = put (without nodes s) node := by
  induction nodes with
  | nil => rw [put, without_cons, if_neg h]; rfl
  | cons n rest ih =>
      rw [put_cons, without_cons n]
      split
      · next hn =>
          rw [without_cons, if_neg h, if_neg (hn ▸ h), put_cons, if_pos hn]
      · next hn =>
          rw [without_cons, ih]
          split
          · rfl
          · rw [put_cons, if_neg hn]

theorem mem_put {nodes : List Node} {node n : Node} (h : n ∈ put nodes node) :
    n = node ∨ n ∈ nodes := by
  induction nodes with
  | nil => exact Or.inl (List.mem_singleton.1 h)
  | cons m rest ih =>
      rw [put_cons] at h
      split at h
      · exact (List.mem_cons.1 h).imp_right (List.mem_cons_of_mem _)
      · rcases List.mem_cons.1 h with rfl | hmem
        · exact Or.inr List.mem_cons_self
        · exact (ih hmem).imp_right (List.mem_cons_of_mem _)

theorem put_of_nodeAt_eq_none {nodes : List Node} {node : Node}
    (h : nodeAt nodes node.segments = none) : put nodes node = nodes ++ [node] := by
  induction nodes with
  | nil => rfl
  | cons n rest ih =>
      rw [nodeAt_cons] at h
      split at h
      · cases h
      · next hne => rw [put_cons, if_neg hne, ih h, List.cons_append]

/-- A node that is put in the place of another one leaves the order of the segments as it is. -/
theorem map_segments_put {nodes : List Node} {node n : Node}
    (h : nodeAt nodes node.segments = some n) :
    (put nodes node).map Node.segments = nodes.map Node.segments := by
  induction nodes with
  | nil => cases h
  | cons m rest ih =>
      rw [nodeAt_cons] at h
      rw [put_cons]
      split at h
      · next heq => rw [if_pos heq, List.map_cons, List.map_cons, heq]
      · next hne => rw [if_neg hne, List.map_cons, List.map_cons, ih h]

theorem keyed_put {nodes : List Node} (hk : Keyed nodes) (node : Node) :
    Keyed (put nodes node) := by
  induction nodes with
  | nil => exact keyed_cons.2 ⟨fun _ h => (List.not_mem_nil h).elim, keyed_nil⟩
  | cons n rest ih =>
      obtain ⟨hn, hrest⟩ := keyed_cons.1 hk
      rw [put_cons]
      split
      · next h => exact keyed_cons.2 ⟨h ▸ hn, hrest⟩
      · next h =>
          refine keyed_cons.2 ⟨fun m hm => ?_, ih hrest⟩
          rcases mem_put hm with rfl | hmem
          · exact Ne.symm h
          · exact hn m hmem

/-! ## Storing nodes that have operations -/

theorem store_nil (nodes : List Node) (node : Node) : store nodes node [] = nodes := rfl

theorem store_of_ne_nil (nodes : List Node) (node : Node) {ops : List Operation} (h : ops ≠ []) :
    store nodes node ops = put nodes { node with operations := ops } := by
  rw [store, if_neg (by simpa using h)]

theorem nodeAt_store_self (nodes : List Node) (node : Node) {ops : List Operation} (h : ops ≠ []) :
    nodeAt (store nodes node ops) node.segments = some { node with operations := ops } := by
  rw [store_of_ne_nil nodes node h]
  exact nodeAt_put_self nodes { node with operations := ops }

theorem mem_store {nodes : List Node} {node n : Node} {ops : List Operation}
    (h : n ∈ store nodes node ops) :
    (ops ≠ [] ∧ n = { node with operations := ops }) ∨ n ∈ nodes := by
  cases ops with
  | nil => exact Or.inr h
  | cons op rest =>
      rw [store_of_ne_nil nodes node (List.cons_ne_nil op rest)] at h
      exact (mem_put h).imp_left fun hn => ⟨List.cons_ne_nil op rest, hn⟩

theorem keyed_store {nodes : List Node} (hk : Keyed nodes) (node : Node) (ops : List Operation) :
    Keyed (store nodes node ops) := by
  unfold store
  split
  · exact hk
  · exact keyed_put hk _

theorem without_store (nodes : List Node) (node : Node) (ops : List Operation) :
    without (store nodes node ops) node.segments = without nodes node.segments := by
  unfold store
  split
  · rfl
  · exact without_put nodes { node with operations := ops }

theorem without_store_of_ne (nodes : List Node) {node : Node} {s : List String}
    (h : node.segments ≠ s) (ops : List Operation) :
    without (store nodes node ops) s = store (without nodes s) node ops := by
  unfold store
  split
  · rfl
  · exact without_put_of_ne nodes h

/-! ## The operations at some segments -/

/-- The operations of the node at some segments, and none where there is no node. -/
def operationsAt (nodes : List Node) (s : List String) : List Operation :=
  (nodeAt nodes s).elim [] Node.operations

theorem operationsAt_of_nodeAt {nodes : List Node} {s : List String} {n : Node}
    (h : nodeAt nodes s = some n) : operationsAt nodes s = n.operations := by
  rw [operationsAt, h, Option.elim_some]

theorem operationsAt_eq_nil {nodes : List Node} {s : List String} (h : nodeAt nodes s = none) :
    operationsAt nodes s = [] := by
  rw [operationsAt, h, Option.elim_none]

theorem operationsAt_of_mem {nodes : List Node} (hk : Keyed nodes) {n : Node} (hn : n ∈ nodes) :
    operationsAt nodes n.segments = n.operations :=
  operationsAt_of_nodeAt (nodeAt_of_mem hk hn)

/-- Where there are operations, there is one node, and it holds them. -/
theorem exists_node_of_mem_operationsAt {nodes : List Node} (hk : Keyed nodes) {s : List String}
    {op : Operation} (h : op ∈ operationsAt nodes s) :
    ∃ n ∈ nodes, n.segments = s ∧ n.operations = operationsAt nodes s ∧
      ∀ n' ∈ nodes, n'.segments = s → n' = n := by
  cases hn : nodeAt nodes s with
  | none =>
      rw [operationsAt_eq_nil hn] at h
      cases h
  | some n =>
      refine ⟨n, mem_of_nodeAt hn, segments_of_nodeAt hn, (operationsAt_of_nodeAt hn).symm, ?_⟩
      rintro n' hn' rfl
      rw [nodeAt_of_mem hk hn'] at hn
      exact Option.some.inj hn

/-- The operations of a table are those at some segments and those elsewhere. -/
theorem perm_operationsAt_without {nodes : List Node} (hk : Keyed nodes) (s : List String) :
    (nodes.flatMap Node.operations).Perm
      (operationsAt nodes s ++ (without nodes s).flatMap Node.operations) := by
  have h := (perm_nodeAt_without hk s).flatMap_right Node.operations
  rw [List.flatMap_append] at h
  unfold operationsAt
  cases hn : nodeAt nodes s with
  | none => simpa [hn] using h
  | some n => simpa [hn] using h

end ApiOutline.Tree
