import ApiOutline.Proofs.Tree.Visit

/-!
# What a visit can do to the table

A visit concerns the node at its segments and no other (`without_revise`), and
leaves there what it carries over followed by what it adds
(`operationsAt_revise_self`). A table stays one in which no two nodes have the
same segments and every node holds an operation and knows its endpoint
(`IsTable`), so every table of a run is one (`isTable_run`), and it has a node
at exactly the segments where some visit found an operation
(`nodeAt_run_isSome`). The table that a merge leaves is one of them, and there
it is the templates that decide (`exists_merged_iff`).
-/

namespace ApiOutline.Tree

variable {c : Conventions} {v : Visit} {nodes : List Node}

/-! ## Carrying operations over -/

theorem length_relabel (pending : List (String × String)) (ops : List Operation) :
    (relabel pending ops).length = ops.length := by
  induction ops generalizing pending with
  | nil => rfl
  | cons op rest ih =>
      rw [relabel]
      split
      · rw [List.length_cons, List.length_cons, ih]
      · rw [List.length_cons, List.length_cons, ih]

namespace Visit

theorem carried_eq_nil : v.carried nodes = [] ↔ operationsAt nodes v.segments = [] := by
  rw [← List.length_eq_zero_iff, ← List.length_eq_zero_iff, carried]
  split
  · rw [length_relabel]
  · exact Iff.rfl

/-- A visit that finds operations leaves some. -/
theorem carried_append_added_eq_nil :
    v.carried nodes ++ v.added c nodes = [] ↔
      operationsAt nodes v.segments = [] ∧ v.operations c = [] := by
  rw [List.append_eq_nil_iff, carried_eq_nil]
  refine and_congr_right fun h => ?_
  rw [added, carried_eq_nil.2 h, taken_nil_eq_nil]

/-! ## One visit -/

theorem segments_base : (v.base c nodes).segments = v.segments := by
  unfold base
  split
  · rfl
  · cases h : nodeAt nodes v.segments with
    | none => rfl
    | some n => exact segments_of_nodeAt h

theorem keyed_cleared (hk : Keyed nodes) : Keyed (v.cleared nodes) := by
  unfold cleared
  split
  · exact keyed_without hk _
  · exact hk

theorem mem_of_mem_cleared {n : Node} (h : n ∈ v.cleared nodes) : n ∈ nodes := by
  unfold cleared at h
  split at h
  · exact (mem_without.1 h).1
  · exact h

theorem without_cleared : without (v.cleared nodes) v.segments = without nodes v.segments := by
  unfold cleared
  split
  · exact without_without nodes v.segments
  · rfl

theorem keyed_revise (hk : Keyed nodes) : Keyed (v.revise c nodes) :=
  keyed_store (keyed_cleared hk) _ _

/-- A visit leaves the nodes with other segments as they are, and in their order. -/
theorem without_revise : without (v.revise c nodes) v.segments = without nodes v.segments := by
  have h := without_store (v.cleared nodes) (v.base c nodes) (v.carried nodes ++ v.added c nodes)
  rw [segments_base, without_cleared] at h
  exact h

theorem nodeAt_revise_of_ne {s : List String} (h : v.segments ≠ s) :
    nodeAt (v.revise c nodes) s = nodeAt nodes s := by
  rw [← nodeAt_without_of_ne (v.revise c nodes) h, without_revise, nodeAt_without_of_ne nodes h]

theorem operationsAt_revise_of_ne {s : List String} (h : v.segments ≠ s) :
    operationsAt (v.revise c nodes) s = operationsAt nodes s := by
  rw [operationsAt, operationsAt, nodeAt_revise_of_ne h]

theorem nodeAt_revise_self (h : v.carried nodes ++ v.added c nodes ≠ []) :
    nodeAt (v.revise c nodes) v.segments =
      some { v.base c nodes with operations := v.carried nodes ++ v.added c nodes } := by
  have hs : v.segments = (v.base c nodes).segments := segments_base.symm
  rw [revise, hs]
  exact nodeAt_store_self _ _ h

/-- A visit leaves at its segments what it carries over and what it adds. -/
theorem operationsAt_revise_self :
    operationsAt (v.revise c nodes) v.segments = v.carried nodes ++ v.added c nodes := by
  by_cases h : v.carried nodes ++ v.added c nodes = []
  · -- Nothing is stored: the table is cleared at most, and there was nothing to clear.
    have hnone : operationsAt nodes v.segments = [] := (carried_append_added_eq_nil.1 h).1
    rw [revise, h, store_nil, cleared]
    split
    · exact operationsAt_eq_nil (nodeAt_without_self nodes v.segments)
    · exact hnone
  · rw [operationsAt, nodeAt_revise_self h, Option.elim_some]

end Visit

/-! ## Every table of a run -/

/-- What holds of the nodes whenever a path item has been added. -/
structure IsTable (nodes : List Node) : Prop where
  keyed : Keyed nodes
  full : ∀ n ∈ nodes, n.operations ≠ []
  real : ∀ n ∈ nodes, n.endpoint.isSome = true

theorem isTable_nil : IsTable [] :=
  ⟨keyed_nil, fun _ h => (List.not_mem_nil h).elim, fun _ h => (List.not_mem_nil h).elim⟩

theorem Visit.endpoint_base_isSome (h : IsTable nodes) :
    (v.base c nodes).endpoint.isSome = true := by
  unfold Visit.base
  split
  · rfl
  · cases hn : nodeAt nodes v.segments with
    | none => rfl
    | some n => exact h.real n (mem_of_nodeAt hn)

theorem isTable_revise (h : IsTable nodes) : IsTable (v.revise c nodes) where
  keyed := Visit.keyed_revise h.keyed
  full := by
    intro n hn
    rcases mem_store hn with ⟨hops, rfl⟩ | hmem
    · exact hops
    · exact h.full n (Visit.mem_of_mem_cleared hmem)
  real := by
    intro n hn
    rcases mem_store hn with ⟨_, rfl⟩ | hmem
    · exact Visit.endpoint_base_isSome h
    · exact h.real n (Visit.mem_of_mem_cleared hmem)

theorem isTable_run (h : IsTable nodes) (vs : List Visit) : IsTable (run c vs nodes) := by
  induction vs generalizing nodes with
  | nil => exact h
  | cons v rest ih => exact ih (isTable_revise h)

theorem run_concat (vs : List Visit) (v : Visit) :
    run c (vs ++ [v]) nodes = v.revise c (run c vs nodes) := by
  simp only [run, List.foldl_append, List.foldl_cons, List.foldl_nil]

/-- In a table, there is a node where there are operations. -/
theorem IsTable.nodeAt_isSome (h : IsTable nodes) (s : List String) :
    (nodeAt nodes s).isSome = true ↔ operationsAt nodes s ≠ [] := by
  cases hn : nodeAt nodes s with
  | none => simp [operationsAt_eq_nil hn]
  | some n => simpa [operationsAt_of_nodeAt hn] using h.full n (mem_of_nodeAt hn)

theorem operationsAt_revise_ne_nil (s : List String) :
    operationsAt (v.revise c nodes) s ≠ [] ↔
      operationsAt nodes s ≠ [] ∨ v.segments = s ∧ v.operations c ≠ [] := by
  by_cases h : v.segments = s
  · subst h
    rw [Visit.operationsAt_revise_self, ne_eq, Visit.carried_append_added_eq_nil]
    simp only [Classical.not_and_iff_not_or_not, ne_eq, true_and]
  · rw [Visit.operationsAt_revise_of_ne h]
    simp only [h, false_and, or_false]

/-- There are operations where there were some and where a visit found some. -/
theorem operationsAt_run_ne_nil (vs : List Visit) (s : List String) :
    operationsAt (run c vs nodes) s ≠ [] ↔
      operationsAt nodes s ≠ [] ∨ ∃ v ∈ vs, v.segments = s ∧ v.operations c ≠ [] := by
  induction vs generalizing nodes with
  | nil => simp [run]
  | cons v rest ih =>
      have h : run c (v :: rest) nodes = run c rest (v.revise c nodes) := rfl
      rw [h, ih, operationsAt_revise_ne_nil, or_assoc]
      simp only [List.mem_cons, exists_eq_or_imp]

/-- A run that starts from nothing has a node where a visit found an operation. -/
theorem nodeAt_run_isSome (vs : List Visit) (s : List String) :
    (nodeAt (run c vs []) s).isSome = true ↔ ∃ v ∈ vs, v.segments = s ∧ v.operations c ≠ [] := by
  rw [(isTable_run isTable_nil vs).nodeAt_isSome, operationsAt_run_ne_nil]
  have hnil : operationsAt [] s = [] := rfl
  simp only [hnil, ne_eq, not_true_eq_false, false_or]

/-! ## What a merge leaves -/

theorem isTable_merge {paths : Members} (h : (merge c paths).result = .ok nodes) :
    IsTable nodes := by
  obtain ⟨-, rfl, -⟩ := merge_ok h
  exact isTable_run isTable_nil _

/-- Whether some template with these segments yields an operation. -/
def Yields (c : Conventions) (paths : Members) (s : List String) : Prop :=
  ∃ v ∈ visits c paths, v.segments = s ∧ v.operations c ≠ []

theorem Yields.mono {paths paths' : Members} {s : List String} (hsub : paths ⊆ paths')
    (h : Yields c paths s) : Yields c paths' s := by
  obtain ⟨v, hv, hs⟩ := h
  obtain ⟨m, hm, hvm⟩ := List.mem_filterMap.1 hv
  exact ⟨v, List.mem_filterMap.2 ⟨m, hsub hm, hvm⟩, hs⟩

/-- The merge has a node where a template yields an operation. -/
theorem exists_merged_iff {paths : Members} (h : (merge c paths).result = .ok nodes)
    (s : List String) : (∃ n ∈ nodes, n.segments = s) ↔ Yields c paths s := by
  obtain ⟨-, hrun, -⟩ := merge_ok h
  rw [← nodeAt_isSome, hrun, nodeAt_run_isSome]
  simp only [Yields, (visits_ordered_perm c paths).mem_iff]

end ApiOutline.Tree
