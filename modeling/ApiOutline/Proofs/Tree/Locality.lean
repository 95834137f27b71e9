import ApiOutline.Proofs.Tree.Conservation

/-!
# An endpoint concerns its own segments

All path items are folded into one list of nodes, and each takes nodes out of
it and puts nodes in. Still a visit reads one node of the table, the one at
its segments, and writes no other. Two things follow.

What a run leaves at some segments is what the visits to those segments leave
(`nodeAt_run_visitsAt`), and its warnings are theirs and those of the others
(`perm_runWarnings_visitsAt`). So the groups of templates with the same segments
may be looked at one by one.

What a run leaves elsewhere is what it leaves without those visits, in the
same order (`without_run`). A template that is added to a mapping moves no
other one, since a stable sort keeps what remains in its place, and so the
merge of the larger mapping differs at the segments of that template alone.
-/

namespace ApiOutline.Tree

variable {c : Conventions} {v : Visit} {nodes nodes' : List Node} {s : List String}

/-! ## A visit reads one node -/

namespace Visit

theorem carried_congr (h : nodeAt nodes v.segments = nodeAt nodes' v.segments) :
    v.carried nodes = v.carried nodes' := by
  unfold carried operationsAt
  rw [h]

theorem appends_congr (h : nodeAt nodes v.segments = nodeAt nodes' v.segments) :
    v.appends nodes = v.appends nodes' := by
  unfold appends
  rw [h]

theorem base_congr (h : nodeAt nodes v.segments = nodeAt nodes' v.segments) :
    v.base c nodes = v.base c nodes' := by
  unfold base
  rw [h]

theorem added_congr (h : nodeAt nodes v.segments = nodeAt nodes' v.segments) :
    v.added c nodes = v.added c nodes' := by
  unfold added
  rw [appends_congr h, carried_congr h]

theorem warnings_congr (h : nodeAt nodes v.segments = nodeAt nodes' v.segments) :
    v.warnings c nodes = v.warnings c nodes' := by
  unfold warnings dropped
  rw [appends_congr h, carried_congr h]

theorem nodeAt_cleared_congr (h : nodeAt nodes v.segments = nodeAt nodes' v.segments) :
    nodeAt (v.cleared nodes) v.segments = nodeAt (v.cleared nodes') v.segments := by
  unfold cleared
  split
  · rw [nodeAt_without_self, nodeAt_without_self]
  · exact h

end Visit

/-- Two tables with one node at some segments have one there after a visit, wherever it goes. -/
theorem nodeAt_revise_congr (h : nodeAt nodes s = nodeAt nodes' s) :
    nodeAt (v.revise c nodes) s = nodeAt (v.revise c nodes') s := by
  by_cases hs : v.segments = s
  · subst hs
    have hcarried := Visit.carried_congr h
    have hadded : v.added c nodes = v.added c nodes' := Visit.added_congr h
    by_cases hops : v.carried nodes ++ v.added c nodes = []
    · have hops' : v.carried nodes' ++ v.added c nodes' = [] := by rw [← hcarried, ← hadded, hops]
      rw [Visit.revise, Visit.revise, hops, hops', store_nil, store_nil]
      exact Visit.nodeAt_cleared_congr h
    · have hops' : v.carried nodes' ++ v.added c nodes' ≠ [] := by rwa [← hcarried, ← hadded]
      rw [Visit.nodeAt_revise_self hops, Visit.nodeAt_revise_self hops', Visit.base_congr h,
        hcarried, hadded]
  · rw [Visit.nodeAt_revise_of_ne hs, Visit.nodeAt_revise_of_ne hs, h]

theorem nodeAt_run_congr (vs : List Visit) (h : nodeAt nodes s = nodeAt nodes' s) :
    nodeAt (run c vs nodes) s = nodeAt (run c vs nodes') s := by
  induction vs generalizing nodes nodes' with
  | nil => exact h
  | cons v rest ih => exact ih (nodeAt_revise_congr h)

/-! ## The visits to some segments -/

/-- The visits to some segments. -/
def visitsAt (vs : List Visit) (s : List String) : List Visit :=
  vs.filter fun v => v.segments == s

/-- The visits to other segments. -/
def visitsWithout (vs : List Visit) (s : List String) : List Visit :=
  vs.filter fun v => v.segments != s

theorem visitsAt_cons (v : Visit) (rest : List Visit) (s : List String) :
    visitsAt (v :: rest) s = if v.segments = s then v :: visitsAt rest s else visitsAt rest s := by
  unfold visitsAt
  rw [List.filter_cons]
  simp only [beq_iff_eq]

theorem visitsWithout_cons (v : Visit) (rest : List Visit) (s : List String) :
    visitsWithout (v :: rest) s =
      if v.segments = s then visitsWithout rest s else v :: visitsWithout rest s := by
  unfold visitsWithout
  rw [List.filter_cons]
  by_cases h : v.segments = s <;> simp [h]

theorem mem_visitsAt {vs : List Visit} {s : List String} {v : Visit} :
    v ∈ visitsAt vs s ↔ v ∈ vs ∧ v.segments = s := by
  unfold visitsAt
  rw [List.mem_filter, beq_iff_eq]

theorem mem_visitsWithout {vs : List Visit} {s : List String} {v : Visit} :
    v ∈ visitsWithout vs s ↔ v ∈ vs ∧ v.segments ≠ s := by
  unfold visitsWithout
  rw [List.mem_filter, bne_iff_ne]

/-- What a run leaves at some segments is what the visits to them leave. -/
theorem nodeAt_run_visitsAt (vs : List Visit) (s : List String) :
    nodeAt (run c vs nodes) s = nodeAt (run c (visitsAt vs s) nodes) s := by
  induction vs generalizing nodes with
  | nil => rfl
  | cons v rest ih =>
      have hrun : run c (v :: rest) nodes = run c rest (v.revise c nodes) := rfl
      rw [hrun, ih, visitsAt_cons]
      split
      · rfl
      · next hs => exact nodeAt_run_congr _ (Visit.nodeAt_revise_of_ne hs)

theorem runWarnings_congr {vs : List Visit}
    (h : ∀ v ∈ vs, nodeAt nodes v.segments = nodeAt nodes' v.segments) :
    runWarnings c vs nodes = runWarnings c vs nodes' := by
  induction vs generalizing nodes nodes' with
  | nil => rfl
  | cons v rest ih =>
      obtain ⟨hv, hrest⟩ := List.forall_mem_cons.1 h
      rw [runWarnings, runWarnings, Visit.warnings_congr hv]
      exact congrArg _ (ih fun u hu => nodeAt_revise_congr (hrest u hu))

/-- The warnings of a run are those of the visits to some segments and those of the others. -/
theorem perm_runWarnings_visitsAt (vs : List Visit) (s : List String) :
    (runWarnings c vs nodes).Perm
      (runWarnings c (visitsAt vs s) nodes ++ runWarnings c (visitsWithout vs s) nodes) := by
  induction vs generalizing nodes with
  | nil => exact List.Perm.refl _
  | cons v rest ih =>
      have hrest := (@ih (v.revise c nodes)).append_left (v.warnings c nodes)
      rw [visitsAt_cons, visitsWithout_cons, runWarnings]
      -- Either half of what follows does not see this visit, the one that it is no part of.
      split
      · next hs =>
          have hunseen : runWarnings c (visitsWithout rest s) (v.revise c nodes) =
              runWarnings c (visitsWithout rest s) nodes :=
            runWarnings_congr fun u hu => Visit.nodeAt_revise_of_ne fun heq =>
              (mem_visitsWithout.1 hu).2 (heq.symm.trans hs)
          rw [hunseen, ← List.append_assoc] at hrest
          exact hrest
      · next hs =>
          have hunseen : runWarnings c (visitsAt rest s) (v.revise c nodes) =
              runWarnings c (visitsAt rest s) nodes :=
            runWarnings_congr fun u hu => Visit.nodeAt_revise_of_ne fun heq =>
              hs (heq.trans (mem_visitsAt.1 hu).2)
          rw [hunseen] at hrest
          refine hrest.trans ?_
          rw [runWarnings, ← List.append_assoc, ← List.append_assoc]
          exact List.perm_append_comm.append_right _

/-! ## The visits elsewhere -/

theorem Visit.without_cleared_comm (v : Visit) (nodes : List Node) (s : List String) :
    without (v.cleared nodes) s = v.cleared (without nodes s) := by
  unfold cleared
  split
  · exact without_comm nodes v.segments s
  · rfl

/-- A visit does to the nodes elsewhere what it does to the table. -/
theorem without_revise_of_ne (h : v.segments ≠ s) :
    without (v.revise c nodes) s = v.revise c (without nodes s) := by
  have hnode : nodeAt (without nodes s) v.segments = nodeAt nodes v.segments :=
    nodeAt_without_of_ne nodes h.symm
  have hbase : (v.base c nodes).segments ≠ s := by rwa [Visit.segments_base]
  rw [Visit.revise, Visit.revise, without_store_of_ne _ hbase, Visit.without_cleared_comm,
    Visit.carried_congr hnode, Visit.added_congr hnode, Visit.base_congr hnode]

/-- Elsewhere a run leaves what it leaves without the visits to some segments. -/
theorem without_run (vs : List Visit) (s : List String) :
    without (run c vs nodes) s = run c (visitsWithout vs s) (without nodes s) := by
  induction vs generalizing nodes with
  | nil => rfl
  | cons v rest ih =>
      have hrun : run c (v :: rest) nodes = run c rest (v.revise c nodes) := rfl
      rw [hrun, ih, visitsWithout_cons]
      split
      · next hs => rw [← hs, Visit.without_revise]
      · next hs =>
          rw [without_revise_of_ne hs]
          rfl

/-! ## One more template -/

/-- Visits of some kind are made in an order that a member which leads to none of them has no part
in. -/
theorem filter_visits_insert (before after : Members) {m : Value × Value} {p : Visit → Bool}
    (hm : ∀ v, Visit.ofMember? c m = some v → p v = false) :
    (visits c (ordered (before ++ m :: after))).filter p =
      (visits c (ordered (before ++ after))).filter p := by
  have hlarge := (isSorting_visits c (before ++ m :: after)).filter p
  have hsmall := (isSorting_visits c (before ++ after)).filter p
  have hsame : (visits c (before ++ m :: after)).filter p =
      (visits c (before ++ after)).filter p := by
    unfold visits
    rw [List.filterMap_append, List.filterMap_append, List.filter_append, List.filter_append]
    cases hv : Visit.ofMember? c m with
    | none => rw [List.filterMap_cons_none hv]
    | some v =>
        rw [List.filterMap_cons_some hv, List.filter_cons_of_neg]
        rw [hm v hv]
        exact Bool.false_ne_true
  rw [hsame] at hlarge
  exact hlarge.unique hsmall

theorem visits_insert_of_none (before after : Members) {m : Value × Value}
    (hm : Visit.ofMember? c m = none) :
    visits c (ordered (before ++ m :: after)) = visits c (ordered (before ++ after)) := by
  have h := filter_visits_insert (p := fun _ => true) before after fun v hv => by
    rw [hm] at hv
    cases hv
  rwa [List.filter_true, List.filter_true] at h

/-- A member that is added to a mapping leaves all nodes as they are and in their order, except for
the one at the segments of its template. One that is no path item leaves that one, too. -/
theorem merge_insert_is_local {c : Conventions} {before after : Members} {raw : String}
    {item : Value} {nodes nodes' : List Node} (h : (merge c (before ++ after)).result = .ok nodes)
    (h' : (merge c (before ++ (.str raw, item) :: after)).result = .ok nodes') :
    (item.isMap = true → ∃ e, Endpoint.ofTemplate c.rules raw = .ok e) ∧
    (∀ e, Endpoint.ofTemplate c.rules raw = .ok e →
      without nodes' e.segments = without nodes e.segments) ∧
    (item.isMap = false → nodes' = nodes) := by
  obtain ⟨-, hrun, -⟩ := merge_ok h
  obtain ⟨hread, hrun', -⟩ := merge_ok h'
  refine ⟨?_, ?_, ?_⟩
  · intro hmap
    obtain ⟨v, hv, -⟩ := hread (.str raw, item)
      (List.mem_append_right _ List.mem_cons_self) hmap
    obtain ⟨_, hm, he⟩ := Visit.ofMember?_some hv
    cases hm
    exact ⟨v.endpoint, he⟩
  · intro e he
    rw [hrun, hrun', without_run, without_run]
    refine congrArg (run c · _) (filter_visits_insert before after fun v hv => ?_)
    obtain ⟨_, hm, hve⟩ := Visit.ofMember?_some hv
    cases hm
    rw [he] at hve
    cases hve
    exact bne_self_eq_false _
  · intro hmap
    have hnone : Visit.ofMember? c (.str raw, item) = none := by
      cases item with
      | map cell ms => cases hmap
      | _ => rfl
    rw [hrun, hrun', visits_insert_of_none before after hnone]

/-! ## A house

Four collections, and a template for the items of one of them: its node moves
behind another one, and the rest stay where they are. -/

def houseDefinition (id : String) : Value :=
  .ofMembers [(.str "get", shelfDefinition id)]

def houseNode (name : String) : Node where
  segments := [name]
  parameter := none
  defaultParameter := none
  operations := [shelfOperation ("/" ++ name) "get" "get" name]
  endpoint := some ("/" ++ name)

def houseBefore : Members :=
  [(.str "/hall", houseDefinition "hall"), (.str "/room", houseDefinition "room"),
    (.str "/loft", houseDefinition "loft")]

def houseAfter : Members :=
  [(.str "/basement", houseDefinition "basement")]

def houseItem : Node where
  segments := ["room"]
  parameter := some "x"
  defaultParameter := none
  operations :=
    [shelfOperation "/room" "get" "list" "room",
      shelfOperation "/room/{x}" "get" "get" "item"]
  endpoint := some "/room/{x}"

theorem result_merge_house :
    (merge shelfConventions (houseBefore ++ houseAfter)).result =
      .ok [houseNode "hall", houseNode "room", houseNode "loft", houseNode "basement"] := by
  have hordered : ordered (houseBefore ++ houseAfter) = houseBefore ++ houseAfter :=
    List.mergeSort_of_pairwise (by decide +kernel)
  rw [merge, if_pos (by decide +kernel), hordered]
  rfl

def houseLarger : Members :=
  houseBefore ++ (.str "/room/\x7bx\x7d", houseDefinition "item") :: houseAfter

theorem result_merge_houseLarger :
    (merge shelfConventions houseLarger).result =
      .ok [houseNode "hall", houseNode "loft", houseItem, houseNode "basement"] := by
  have hordered : ordered houseLarger = houseLarger :=
    List.mergeSort_of_pairwise (by decide +kernel)
  rw [merge, if_pos (by decide +kernel), hordered]
  rfl

theorem merge_insert_is_local_of_house :
    (merge shelfConventions (houseBefore ++ houseAfter)).result =
      .ok [houseNode "hall", houseNode "room", houseNode "loft", houseNode "basement"] ∧
    (merge shelfConventions houseLarger).result =
      .ok [houseNode "hall", houseNode "loft", houseItem, houseNode "basement"] ∧
    without [houseNode "hall", houseNode "loft", houseItem, houseNode "basement"] ["room"] =
      without [houseNode "hall", houseNode "room", houseNode "loft", houseNode "basement"]
        ["room"] := by
  obtain ⟨-, hlocal, -⟩ := merge_insert_is_local result_merge_house result_merge_houseLarger
  refine ⟨result_merge_house, result_merge_houseLarger, ?_⟩
  exact hlocal ⟨"/room/\x7bx\x7d", "/room/\x7bx\x7d"⟩ rfl

end ApiOutline.Tree
