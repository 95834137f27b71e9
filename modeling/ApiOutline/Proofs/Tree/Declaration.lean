import ApiOutline.Proofs.Tree.Locality
import ApiOutline.Proofs.Tree.Success

/-!
# The order of declaration

Templates of one length are visited in the order in which the document
declares them, and so the order of the nodes does depend on it. The nodes
themselves do not. Each comes of the visits to its segments alone, and those
are visited in the same order however they are declared, provided no two of
them have templates of one length: the order of a group is then that of its
lengths (`visitsAt_ordered_eq`).

Two runs with the same visits to each group, in the same order, leave tables
with the same nodes. For the warnings, one group after the other is taken out
of both runs (`perm_runWarnings`).
-/

namespace ApiOutline.Tree

variable {c : Conventions} {nodes : List Node} {paths paths' : Members}

/-! ## The order within a group -/

/-- Whether any two path items whose templates have the same segments have templates of different
lengths. -/
def LengthsDiffer (c : Conventions) (paths : Members) : Prop :=
  (visits c paths).Pairwise fun v w =>
    v.segments = w.segments → v.endpoint.raw.length ≠ w.endpoint.raw.length

instance (c : Conventions) (paths : Members) : Decidable (LengthsDiffer c paths) :=
  inferInstanceAs (Decidable (List.Pairwise _ (visits c paths)))

theorem LengthsDiffer.of_perm (hu : LengthsDiffer c paths) (hp : paths'.Perm paths) :
    LengthsDiffer c paths' := by
  have hsymm : ∀ {v w : Visit},
      (v.segments = w.segments → v.endpoint.raw.length ≠ w.endpoint.raw.length) →
        w.segments = v.segments → w.endpoint.raw.length ≠ v.endpoint.raw.length :=
    fun h heq => (h heq.symm).symm
  exact ((hp.filterMap (Visit.ofMember? c)).pairwise_iff hsymm).2 hu

/-- Where lengths differ, the templates of a group are visited in the order of their lengths. -/
theorem LengthsDiffer.pairwise_lt (hu : LengthsDiffer c paths) (s : List String) :
    (visitsAt (visits c (ordered paths)) s).Pairwise fun v w =>
      v.endpoint.raw.length < w.endpoint.raw.length := by
  have hdiffer : LengthsDiffer c (ordered paths) := hu.of_perm (ordered_perm paths)
  have hboth := List.pairwise_and_iff.2 ⟨(isSorting_visits c paths).ascending, hdiffer⟩
  refine (hboth.sublist List.filter_sublist).imp_of_mem fun hv hw h => ?_
  have hsame := (mem_visitsAt.1 hv).2.trans (mem_visitsAt.1 hw).2.symm
  exact Nat.lt_of_le_of_ne h.1 (h.2 hsame)

/-- The visits to a group are made in one order, however they are declared. -/
theorem visitsAt_ordered_eq (hp : paths'.Perm paths) (hu : LengthsDiffer c paths)
    (s : List String) :
    visitsAt (visits c (ordered paths')) s = visitsAt (visits c (ordered paths)) s := by
  have hperm : (visits c (ordered paths')).Perm (visits c (ordered paths)) :=
    (visits_ordered_perm c paths').trans
      ((hp.filterMap (Visit.ofMember? c)).trans (visits_ordered_perm c paths).symm)
  refine List.Perm.eq_of_pairwise (fun v w _ _ hlt hgt => ?_) ((hu.of_perm hp).pairwise_lt s)
    (hu.pairwise_lt s) (hperm.filter _)
  exact absurd hlt (Nat.lt_asymm hgt)

/-! ## Runs that agree on each group -/

theorem visitsAt_visitsWithout_comm (vs : List Visit) (s t : List String) :
    visitsAt (visitsWithout vs t) s = visitsWithout (visitsAt vs s) t :=
  List.filter_comm _ _ vs

theorem length_visitsWithout_lt (v : Visit) (rest : List Visit) :
    (visitsWithout (v :: rest) v.segments).length < (v :: rest).length := by
  rw [visitsWithout_cons, if_pos rfl]
  exact Nat.lt_succ_of_le (List.length_filter_le _ _)

/-- Runs with the same visits to each group leave the same nodes. -/
theorem perm_run_of_visitsAt_eq {vs ws : List Visit} (h : ∀ s, visitsAt vs s = visitsAt ws s) :
    (∀ s, nodeAt (run c vs []) s = nodeAt (run c ws []) s) ∧ (run c vs []).Perm (run c ws []) := by
  have hnodes : ∀ s, nodeAt (run c vs []) s = nodeAt (run c ws []) s := by
    intro s
    rw [nodeAt_run_visitsAt vs, nodeAt_run_visitsAt ws, h s]
  refine ⟨hnodes, perm_of_nodeAt_eq ?_ ?_ hnodes⟩
  · exact (isTable_run isTable_nil vs).keyed
  · exact (isTable_run isTable_nil ws).keyed

/-- Runs with the same visits to each group warn about the same. -/
theorem perm_runWarnings {vs ws : List Visit} (h : ∀ s, visitsAt vs s = visitsAt ws s) :
    (runWarnings c vs nodes).Perm (runWarnings c ws nodes) := by
  match vs with
  | [] =>
      cases ws with
      | nil => exact List.Perm.refl _
      | cons w rest =>
          have hw := h w.segments
          rw [visitsAt_cons, if_pos rfl] at hw
          cases hw
  | v :: rest =>
      -- The group of the first visit is the same in both runs, and so is each of the others.
      have hothers : ∀ s, visitsAt (visitsWithout (v :: rest) v.segments) s =
          visitsAt (visitsWithout ws v.segments) s := by
        intro s
        rw [visitsAt_visitsWithout_comm, visitsAt_visitsWithout_comm, h s]
      refine (perm_runWarnings_visitsAt (v :: rest) v.segments).trans ?_
      rw [h v.segments]
      exact ((perm_runWarnings hothers).append_left _).trans
        (perm_runWarnings_visitsAt ws v.segments).symm
termination_by vs.length
decreasing_by exact length_visitsWithout_lt v rest

/-- However the members of a mapping are declared, their merge fails or succeeds, and if no two
templates of one length have the same segments, it leaves the same nodes and warns about the same
operations. -/
theorem merge_ignores_declaration_order {c : Conventions} {paths paths' : Members}
    (hp : paths'.Perm paths) (hu : LengthsDiffer c paths) :
    ((∃ e, (merge c paths').result = .error e) ↔ ∃ e, (merge c paths).result = .error e) ∧
    ∀ nodes, (merge c paths).result = .ok nodes →
      ∃ nodes', (merge c paths').result = .ok nodes' ∧ nodes'.Perm nodes ∧
        (∀ s, nodeAt nodes' s = nodeAt nodes s) ∧
        (merge c paths').warnings.Perm (merge c paths).warnings := by
  have hfails : ∀ qs : Members, (∃ e, (merge c qs).result = .error e) ↔
      ¬ ∃ nodes, (merge c qs).result = .ok nodes := by
    intro qs
    cases (merge c qs).result with
    | error e => simp
    | ok nodes => simp
  refine ⟨?_, fun nodes h => ?_⟩
  · rw [hfails, hfails, not_iff_not]
    constructor
    · rintro ⟨nodes, h⟩
      exact merge_isOk_of_subset hp.symm.subset h
    · rintro ⟨nodes, h⟩
      exact merge_isOk_of_subset hp.subset h
  · obtain ⟨nodes', h'⟩ := merge_isOk_of_subset hp.subset h
    obtain ⟨-, hrun, hwarn⟩ := merge_ok h
    obtain ⟨-, hrun', hwarn'⟩ := merge_ok h'
    have hgroups := visitsAt_ordered_eq hp hu
    obtain ⟨hnodes, hperm⟩ := perm_run_of_visitsAt_eq (c := c) hgroups
    rw [← hrun, ← hrun'] at hnodes hperm
    refine ⟨nodes', h', hperm, hnodes, ?_⟩
    rw [hwarn, hwarn']
    exact perm_runWarnings hgroups

/-! ## A house declared in two ways

Two rooms change places. With them change two nodes, and nothing else; an
operation for the hall is dropped both times. -/

def houseRest : Members :=
  [(.str "/room", houseDefinition "room"), (.str "/\x7bt\x7d/hall", houseDefinition "other"),
    (.str "/room/\x7bx\x7d", houseDefinition "item")]

def housePaths (first second : String) : Members :=
  (.str ("/" ++ first), houseDefinition first) :: (.str ("/" ++ second), houseDefinition second) ::
    houseRest

theorem merge_housePaths :
    merge shelfConventions (housePaths "hall" "loft") =
      addMembers shelfConventions (housePaths "hall" "loft") [] := by
  have hordered : ordered (housePaths "hall" "loft") = housePaths "hall" "loft" :=
    List.mergeSort_of_pairwise (by decide +kernel)
  rw [merge, if_pos (by decide +kernel), hordered]

theorem merge_ignores_declaration_order_of_house :
    (housePaths "loft" "hall").Perm (housePaths "hall" "loft") ∧
    LengthsDiffer shelfConventions (housePaths "hall" "loft") ∧
    (merge shelfConventions (housePaths "hall" "loft")).result =
      .ok [houseNode "hall", houseNode "loft", houseItem] ∧
    ∃ nodes', (merge shelfConventions (housePaths "loft" "hall")).result = .ok nodes' ∧
      nodes'.Perm [houseNode "hall", houseNode "loft", houseItem] ∧
      (merge shelfConventions (housePaths "loft" "hall")).warnings.Perm
        [.dropped "/\x7bt\x7d/hall" "hall"
          (shelfOperation "/\x7bt\x7d/hall" "get" "get" "other")] := by
  have hperm : (housePaths "loft" "hall").Perm (housePaths "hall" "loft") := List.Perm.swap _ _ _
  have hlengths : LengthsDiffer shelfConventions (housePaths "hall" "loft") := by decide +kernel
  have hmerge : (merge shelfConventions (housePaths "hall" "loft")).result =
      .ok [houseNode "hall", houseNode "loft", houseItem] := by
    rw [merge_housePaths]
    rfl
  obtain ⟨-, hsame⟩ := merge_ignores_declaration_order hperm hlengths
  obtain ⟨nodes', h', hnodes, -, hwarn⟩ := hsame _ hmerge
  rw [merge_housePaths] at hwarn
  exact ⟨hperm, hlengths, hmerge, nodes', h', hnodes, hwarn⟩

end ApiOutline.Tree
