import ApiOutline.Proofs.Definition.Operation
import ApiOutline.Proofs.Journal
import ApiOutline.Proofs.Sorting
import ApiOutline.Proofs.Tree.Table

/-!
# What a run of the merge visits

A run that succeeds met no failure, so it can be told without any: it visits
the path items in order, finds the operations of each, and revises the table.
A `Visit` is one such path item with its endpoint, `Visit.operations` is what
is found there, and `Visit.revise` is what the visit makes of the table. That a
successful run is the succession of its visits is `addMembers_ok`, and what it
warns about is what the visits refuse.

Everything proved about the merge is proved about `revise`, which says all a
visit can do: what the node at its segments held is carried over, with new
roles if the visit is to an item, and operations are added behind it. All of
them are, except that a bare template gives a node that is already there no
second operation for a role.
-/

namespace ApiOutline.Tree

/-! ## Taking operations up

`gather` reads definitions one by one and takes their operations up as it goes.
Read first and taken up afterwards, they come out the same. -/

/-- The operations among some new ones that are taken up behind others. Where `appending` says so,
only those whose role is free. -/
def taken (appending : Bool) : List Operation → List Operation → List Operation
  | _, [] => []
  | ops, op :: rest =>
      if appending && ops.any (·.role == op.role) then taken appending ops rest
      else op :: taken appending (ops ++ [op]) rest

/-- The operations among some new ones that are not taken up. -/
def refused (appending : Bool) : List Operation → List Operation → List Operation
  | _, [] => []
  | ops, op :: rest =>
      if appending && ops.any (·.role == op.role) then op :: refused appending ops rest
      else refused appending (ops ++ [op]) rest

theorem taken_false (ops new : List Operation) : taken false ops new = new := by
  induction new generalizing ops with
  | nil => rfl
  | cons op rest ih => simp [taken, ih]

theorem refused_false (ops new : List Operation) : refused false ops new = [] := by
  induction new generalizing ops with
  | nil => rfl
  | cons op rest ih => simp [refused, ih]

theorem perm_taken_refused (appending : Bool) (ops new : List Operation) :
    new.Perm (taken appending ops new ++ refused appending ops new) := by
  induction new generalizing ops with
  | nil => exact List.Perm.refl _
  | cons op rest ih =>
      rw [taken, refused]
      split
      · exact ((ih ops).cons op).trans List.perm_middle.symm
      · exact (ih (ops ++ [op])).cons op

theorem taken_sublist (appending : Bool) (ops new : List Operation) :
    (taken appending ops new).Sublist new := by
  induction new generalizing ops with
  | nil => exact List.Sublist.refl _
  | cons op rest ih =>
      rw [taken]
      split
      · exact (ih ops).cons op
      · exact (ih (ops ++ [op])).cons_cons op

theorem refused_sublist (appending : Bool) (ops new : List Operation) :
    (refused appending ops new).Sublist new := by
  induction new generalizing ops with
  | nil => exact List.Sublist.refl _
  | cons op rest ih =>
      rw [refused]
      split
      · exact (ih ops).cons_cons op
      · exact (ih (ops ++ [op])).cons op

/-- Behind nothing, the first operation is taken up. -/
theorem taken_nil_eq_nil {appending : Bool} {new : List Operation} :
    taken appending [] new = [] ↔ new = [] := by
  cases new with
  | nil => simp [taken]
  | cons op rest => simp [taken]

/-! ## Visits -/

/-- A path item with the endpoint that its template stands for. -/
structure Visit where
  endpoint : Endpoint
  item : Members

namespace Visit

/-- The visit that a member of `paths` leads to. What is no path item is not visited. -/
def ofMember? (c : Conventions) : Value × Value → Option Visit
  | (.str raw, .map _ item) => (Endpoint.ofTemplate c.rules raw).toOption.map fun e => ⟨e, item⟩
  | _ => none

def segments (v : Visit) : List String := v.endpoint.segments

/-- Whether the template ends in a parameter. -/
def isItem (v : Visit) : Bool := v.endpoint.isParameterized

/-- Looks for the operation of a method. -/
def look (c : Conventions) (v : Visit) (method : String) : Logged (Option Operation) :=
  Operation.ofDefinition? c.methods v.endpoint.template method (Members.find v.item method)

/-- The operation of a method that is asked for, if looking for it finds one. -/
def operation? (c : Conventions) (v : Visit) (method : String) : Option Operation :=
  if method ∈ c.methods then (v.look c method).result.toOption.join else none

/-- The operations that a path item defines, in the order of the methods asked for. -/
def operations (c : Conventions) (v : Visit) : List Operation :=
  c.methods.filterMap (v.operation? c)

/-- Whether looking for the operations of a path item fails nowhere. -/
def IsReadable (c : Conventions) (v : Visit) : Prop :=
  ∀ m ∈ c.methods, ∃ found, (v.look c m).result = .ok found

/-- Whether operations are added to a node that is there. -/
def appends (v : Visit) (nodes : List Node) : Bool :=
  !v.isItem && (nodeAt nodes v.segments).isSome

/-- What is left of the operations that stand at the segments of a visit. -/
def carried (v : Visit) (nodes : List Node) : List Operation :=
  if v.isItem then relabel (pendingRoles v.item) (operationsAt nodes v.segments)
  else operationsAt nodes v.segments

/-- The operations that a visit adds to those. -/
def added (c : Conventions) (v : Visit) (nodes : List Node) : List Operation :=
  taken (v.appends nodes) (v.carried nodes) (v.operations c)

/-- The operations that a visit finds and does not add. -/
def dropped (c : Conventions) (v : Visit) (nodes : List Node) : List Operation :=
  refused (v.appends nodes) (v.carried nodes) (v.operations c)

/-- The table in which a visit stores its node. That of an item takes the place of the node that is
there. -/
def cleared (v : Visit) (nodes : List Node) : List Node :=
  if v.isItem then without nodes v.segments else nodes

/-- The node that a visit stores, but for its operations. -/
def base (c : Conventions) (v : Visit) (nodes : List Node) : Node :=
  if v.isItem then freshNode c v.endpoint
  else (nodeAt nodes v.segments).getD (freshNode c v.endpoint)

/-- The table after a visit. -/
def revise (c : Conventions) (v : Visit) (nodes : List Node) : List Node :=
  store (v.cleared nodes) (v.base c nodes) (v.carried nodes ++ v.added c nodes)

/-- What is warned about a visit. -/
def warnings (c : Conventions) (v : Visit) (nodes : List Node) : List Note :=
  (v.dropped c nodes).map (.dropped v.endpoint.raw ("/".intercalate v.segments))

end Visit

/-- The visits that some members of `paths` lead to, in order. -/
def visits (c : Conventions) (members : Members) : List Visit :=
  members.filterMap (Visit.ofMember? c)

/-- The table after some visits. -/
def run (c : Conventions) (vs : List Visit) (nodes : List Node) : List Node :=
  vs.foldl (fun table v => v.revise c table) nodes

/-- What is warned about some visits. -/
def runWarnings (c : Conventions) : List Visit → List Node → List Note
  | [], _ => []
  | v :: rest, nodes => v.warnings c nodes ++ runWarnings c rest (v.revise c nodes)

/-! ## A successful run is the succession of its visits -/

theorem warnings_ofDefinition? (methods : List String) (endpoint method : String)
    (definition : Value) :
    (Operation.ofDefinition? methods endpoint method definition).warnings = [] := by
  unfold Operation.ofDefinition?
  split
  · split
    · rw [Logged.warnings_note_bind_of_detail rfl, Logged.warnings_map, Logged.warnings_ofExcept]
    · rfl
  · rfl

theorem Visit.operation?_of_look {c : Conventions} {v : Visit} {m : String}
    {found : Option Operation} (hm : m ∈ c.methods) (h : (v.look c m).result = .ok found) :
    v.operation? c m = found := by
  rw [Visit.operation?, if_pos hm, h]
  rfl

/-- Operations that are taken up while they are read are those taken up once all are read. -/
theorem gather_ok {c : Conventions} {e : Endpoint} {item : Members} {path : String}
    {appending : Bool} {ms : List String} {ops ops' : List Operation} (hms : ms ⊆ c.methods)
    (h : (gather c e item path appending ms ops).result = .ok ops') :
    (∀ m ∈ ms, ∃ found, (Visit.look c ⟨e, item⟩ m).result = .ok found) ∧
    ops' = ops ++ taken appending ops (ms.filterMap (Visit.operation? c ⟨e, item⟩)) ∧
    (gather c e item path appending ms ops).warnings =
      (refused appending ops (ms.filterMap (Visit.operation? c ⟨e, item⟩))).map
        (.dropped e.raw path) := by
  induction ms generalizing ops with
  | nil =>
      rw [gather, Logged.result_pure] at h
      cases h
      exact ⟨fun _ hm => (List.not_mem_nil hm).elim, (List.append_nil _).symm, rfl⟩
  | cons m rest ih =>
      rw [gather] at h
      obtain ⟨hm, hms⟩ := List.cons_subset.1 hms
      obtain ⟨found, hfound, hrest⟩ := Logged.result_bind_eq_ok.1 h
      have hop : Visit.operation? c ⟨e, item⟩ m = found := Visit.operation?_of_look hm hfound
      rw [gather, Logged.warnings_bind_of_ok _ hfound, warnings_ofDefinition?, List.nil_append]
      cases found with
      | none =>
          obtain ⟨hall, hops, hwarn⟩ := ih hms hrest
          rw [List.filterMap_cons_none hop]
          exact ⟨List.forall_mem_cons.2 ⟨⟨none, hfound⟩, hall⟩, hops, hwarn⟩
      | some op =>
          rw [List.filterMap_cons_some hop, taken, refused]
          simp only [] at hrest ⊢
          split at hrest
          · next hrole =>
              obtain ⟨_, _, hrest⟩ := Logged.result_bind_eq_ok.1 hrest
              obtain ⟨hall, hops, hwarn⟩ := ih hms hrest
              rw [if_pos hrole, if_pos hrole, if_pos hrole,
                Logged.warnings_note_bind_of_warning rfl, hwarn]
              exact ⟨List.forall_mem_cons.2 ⟨⟨some op, hfound⟩, hall⟩, hops, rfl⟩
          · next hrole =>
              obtain ⟨hall, hops, hwarn⟩ := ih hms hrest
              rw [if_neg hrole, if_neg hrole, if_neg hrole]
              rw [List.append_assoc] at hops
              exact ⟨List.forall_mem_cons.2 ⟨⟨some op, hfound⟩, hall⟩, hops, hwarn⟩

theorem Visit.carried_of_isItem {v : Visit} (hv : v.isItem = true) (nodes : List Node) :
    v.carried nodes = transferred (nodeAt nodes v.segments) v.item := by
  rw [carried, if_pos hv, operationsAt]
  cases nodeAt nodes v.segments <;> rfl

theorem Visit.carried_of_bare {v : Visit} (hv : v.isItem = false) (nodes : List Node) :
    v.carried nodes = operationsAt nodes v.segments := by
  rw [carried, hv, if_neg Bool.false_ne_true]

/-- Operations are gathered behind some others, and a node is stored that holds them all. -/
theorem gather_store_ok {c : Conventions} {v : Visit} {path : String} {appending : Bool}
    {ops : List Operation} {table nodes' : List Node} {node : Node}
    (h : (gather c v.endpoint v.item path appending c.methods ops >>= fun ops' =>
      pure (store table node ops')).result = .ok nodes') :
    v.IsReadable c ∧
    nodes' = store table node (ops ++ taken appending ops (v.operations c)) ∧
    (gather c v.endpoint v.item path appending c.methods ops >>= fun ops' =>
      pure (store table node ops')).warnings =
        (refused appending ops (v.operations c)).map (.dropped v.endpoint.raw path) := by
  obtain ⟨ops', hops, hend⟩ := Logged.result_bind_eq_ok.1 h
  cases hend
  obtain ⟨hread, rfl, hwarn⟩ := gather_ok (List.Subset.refl _) hops
  rw [Logged.warnings_bind_of_ok _ hops, hwarn]
  exact ⟨hread, rfl, List.append_nil _⟩

/-- Adding a path item is its visit. -/
theorem addItem_ok {c : Conventions} {v : Visit} {nodes nodes' : List Node}
    (h : (addItem c v.endpoint v.item nodes).result = .ok nodes') :
    v.IsReadable c ∧ nodes' = v.revise c nodes ∧
    (addItem c v.endpoint v.item nodes).warnings = v.warnings c nodes := by
  unfold addItem at h ⊢
  unfold Visit.revise Visit.warnings Visit.dropped Visit.added Visit.appends Visit.cleared
    Visit.base
  cases hv : v.isItem with
  | true =>
      have hp : v.endpoint.isParameterized = true := hv
      rw [if_pos hp] at h ⊢
      rw [Visit.carried_of_isItem hv, if_pos rfl, if_pos rfl]
      exact gather_store_ok h
  | false =>
      have hp : ¬ v.endpoint.isParameterized = true := Bool.not_eq_true _ ▸ hv
      rw [if_neg hp] at h ⊢
      rw [Visit.carried_of_bare hv, operationsAt, if_neg Bool.false_ne_true,
        if_neg Bool.false_ne_true]
      have hs : v.endpoint.segments = v.segments := rfl
      rw [hs] at h ⊢
      cases hn : nodeAt nodes v.segments with
      | none =>
          rw [hn] at h
          exact gather_store_ok h
      | some n =>
          rw [hn] at h
          exact gather_store_ok h

/-- Whether everything that is to be read in some members of `paths` can be read. -/
def IsReadable (c : Conventions) (members : Members) : Prop :=
  ∀ m ∈ members, m.2.isMap = true → ∃ v, Visit.ofMember? c m = some v ∧ v.IsReadable c

/-- Adding a member is the visit that it leads to, if it leads to one. -/
theorem addMember_ok {c : Conventions} {m : Value × Value} {nodes nodes' : List Node}
    (h : (addMember c m.1 m.2 nodes).result = .ok nodes') :
    (m.2.isMap = false ∧ Visit.ofMember? c m = none ∧ nodes' = nodes ∧
      (addMember c m.1 m.2 nodes).warnings = []) ∨
    ∃ v, Visit.ofMember? c m = some v ∧ v.IsReadable c ∧ nodes' = v.revise c nodes ∧
      (addMember c m.1 m.2 nodes).warnings = v.warnings c nodes := by
  obtain ⟨template, item⟩ := m
  cases item with
  | map cell ms =>
      refine Or.inr ?_
      unfold addMember at h ⊢
      obtain ⟨_, _, h⟩ := Logged.result_bind_eq_ok.1 h
      rw [Logged.warnings_note_bind_of_detail rfl]
      cases template with
      | str raw =>
          obtain ⟨e, he, h⟩ := Logged.result_bind_eq_ok.1 h
          rw [Logged.warnings_bind_of_ok _ he, Logged.warnings_ofExcept]
          rw [Logged.result_ofExcept] at he
          refine ⟨⟨e, ms⟩, ?_, addItem_ok h⟩
          rw [Visit.ofMember?, he]
          rfl
      | _ => cases h
  | _ =>
      refine Or.inl ⟨rfl, ?_, ?_, rfl⟩
      · cases template <;> rfl
      · cases h; rfl

/-- Adding members is visiting them. -/
theorem addMembers_ok {c : Conventions} {members : Members} {nodes nodes' : List Node}
    (h : (addMembers c members nodes).result = .ok nodes') :
    IsReadable c members ∧ nodes' = run c (visits c members) nodes ∧
    (addMembers c members nodes).warnings = runWarnings c (visits c members) nodes := by
  induction members generalizing nodes with
  | nil =>
      cases h
      exact ⟨fun _ hm => (List.not_mem_nil hm).elim, rfl, rfl⟩
  | cons m rest ih =>
      rw [addMembers] at h
      obtain ⟨table, htable, hrest⟩ := Logged.result_bind_eq_ok.1 h
      obtain ⟨hread, hrun, hwarn⟩ := ih hrest
      rw [addMembers, Logged.warnings_bind_of_ok _ htable, hwarn]
      unfold visits at *
      rcases addMember_ok htable with ⟨hmap, hnone, rfl, hw⟩ | ⟨v, hv, hvread, rfl, hw⟩
      · rw [List.filterMap_cons_none hnone, hw, List.nil_append]
        refine ⟨List.forall_mem_cons.2 ⟨fun hm => ?_, hread⟩, hrun, rfl⟩
        rw [hmap] at hm
        cases hm
      · rw [List.filterMap_cons_some hv, hw]
        exact ⟨List.forall_mem_cons.2 ⟨fun _ => ⟨v, hv, hvread⟩, hread⟩, hrun, rfl⟩

/-- A visit remembers the template and the item of its member. -/
theorem Visit.ofMember?_some {c : Conventions} {m : Value × Value} {v : Visit}
    (h : Visit.ofMember? c m = some v) :
    ∃ cell, m = (.str v.endpoint.raw, .map cell v.item) ∧
      Endpoint.ofTemplate c.rules v.endpoint.raw = .ok v.endpoint := by
  unfold Visit.ofMember? at h
  split at h
  · next raw cell item =>
      cases he : Endpoint.ofTemplate c.rules raw with
      | error e => rw [he] at h; cases h
      | ok e =>
          have hraw : e.raw = raw := by
            unfold Endpoint.ofTemplate at he
            split at he
            · cases he
            · cases he; rfl
          rw [he] at h
          cases h
          refine ⟨cell, ?_, ?_⟩
          · rw [hraw]
          · rw [hraw, he]
  · cases h

/-- One of the visits that members lead to comes from one of them, with the visits before and after
it from the members before and after that one. -/
theorem visits_eq_append_cons {c : Conventions} {members : Members} {vs ws : List Visit} {v : Visit}
    (h : visits c members = vs ++ v :: ws) :
    ∃ before m after, members = before ++ m :: after ∧ visits c before = vs ∧
      Visit.ofMember? c m = some v ∧ visits c after = ws := by
  obtain ⟨before, rest, rfl, hbefore, hrest⟩ := List.filterMap_eq_append_iff.1 h
  obtain ⟨skipped, m, after, rfl, hskipped, hm, hafter⟩ := List.filterMap_eq_cons_iff.1 hrest
  refine ⟨before ++ skipped, m, after, by rw [List.append_assoc], ?_, hm, hafter⟩
  rw [visits, List.filterMap_append, hbefore, List.filterMap_eq_nil_iff.2 hskipped,
    List.append_nil]

theorem addMembers_append (c : Conventions) (before after : Members) (nodes : List Node) :
    (addMembers c (before ++ after) nodes).result =
      ((addMembers c before nodes).result >>= fun table => (addMembers c after table).result) := by
  induction before generalizing nodes with
  | nil => rfl
  | cons m rest ih =>
      rw [List.cons_append, addMembers, addMembers, Logged.result_bind, Logged.result_bind]
      cases (addMember c m.1 m.2 nodes).result with
      | error e => rfl
      | ok table => exact ih table

/-- A successful run passes through a table after each of its members. -/
theorem addMembers_isOk_of_prefix {c : Conventions} {before members : Members}
    {nodes nodes' : List Node} (hb : before <+: members)
    (h : (addMembers c members nodes).result = .ok nodes') :
    ∃ table, (addMembers c before nodes).result = .ok table := by
  obtain ⟨after, rfl⟩ := hb
  rw [addMembers_append] at h
  cases ht : (addMembers c before nodes).result with
  | error e => rw [ht] at h; cases h
  | ok table => exact ⟨table, rfl⟩

theorem isSorting_ordered (paths : Members) :
    IsSorting (fun m => (templateLength m.1).getD 0) paths (ordered paths) :=
  isSorting_mergeSort _ paths

theorem ordered_perm (paths : Members) : (ordered paths).Perm paths :=
  (isSorting_ordered paths).perm

theorem visits_ordered_perm (c : Conventions) (paths : Members) :
    (visits c (ordered paths)).Perm (visits c paths) :=
  (ordered_perm paths).filterMap _

/-- Visits are made from short templates to long ones. -/
theorem isSorting_visits (c : Conventions) (paths : Members) :
    IsSorting (fun v : Visit => v.endpoint.raw.length) (visits c paths)
      (visits c (ordered paths)) := by
  refine (isSorting_ordered paths).filterMap fun m v hm => ?_
  obtain ⟨_, rfl, -⟩ := Visit.ofMember?_some hm
  rfl

theorem merge_eq_of_ok {c : Conventions} {paths : Members} {nodes : List Node}
    (h : (merge c paths).result = .ok nodes) : merge c paths = addMembers c (ordered paths) [] := by
  unfold merge at h ⊢
  split at h
  · next ht => rw [if_pos ht]
  · cases h

/-- A merge that succeeds is the run of its visits. -/
theorem merge_ok {c : Conventions} {paths : Members} {nodes : List Node}
    (h : (merge c paths).result = .ok nodes) :
    IsReadable c paths ∧ nodes = run c (visits c (ordered paths)) [] ∧
    (merge c paths).warnings = runWarnings c (visits c (ordered paths)) [] := by
  have heq := merge_eq_of_ok h
  rw [heq] at h ⊢
  obtain ⟨hread, hrun, hwarn⟩ := addMembers_ok h
  exact ⟨fun m hm => hread m ((ordered_perm paths).mem_iff.2 hm), hrun, hwarn⟩

end ApiOutline.Tree
