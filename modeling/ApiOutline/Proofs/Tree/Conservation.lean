import ApiOutline.Proofs.Tree.Run

/-!
# No operation is lost, and none is made up

A visit of the merge changes the roles of some operations and drops others,
but each operation that it finds ends in the table or in a warning, once. The
invariant is an equation between multisets: what the table holds, with roles
forgotten, and what was dropped is what was found (`perm_revise`,
`perm_run`).

The other half is about the reason for a warning. The warnings of a run are
those of its visits, each in the table that the visit found (`mem_runWarnings`),
and a visit drops an operation only behind another one with the same role
(`refused_split`). Together they place every warning at a moment of the run,
described by `IsRefusal`.
-/

namespace ApiOutline

/-- An operation with the role in which it was extracted. -/
def Operation.asExtracted (op : Operation) : Operation := { op with role := op.method }

/-- The operation that a note says was dropped. -/
def Note.droppedOperation? : Note → Option Operation
  | .dropped _ _ op => some op
  | _ => none

namespace Tree

variable {c : Conventions} {v : Visit} {nodes : List Node}

/-! ## What visits find -/

theorem Visit.mem_of_operation? {m : String} {op : Operation} (h : v.operation? c m = some op) :
    m ∈ c.methods :=
  (Option.ite_none_right_eq_some.1 h).1

theorem Visit.look_of_operation? {m : String} {op : Operation}
    (h : v.operation? c m = some op) : (v.look c m).result = .ok (some op) := by
  have h := (Option.ite_none_right_eq_some.1 h).2
  cases hl : (v.look c m).result with
  | error e => rw [hl] at h; cases h
  | ok found => rw [hl] at h; exact congrArg Except.ok h

theorem Visit.mem_operations_of_operation? {m : String} {op : Operation}
    (h : v.operation? c m = some op) : op ∈ v.operations c :=
  List.mem_filterMap.2 ⟨m, Visit.mem_of_operation? h, h⟩

theorem Visit.isRecordOf_of_operation? {m : String} {op : Operation}
    (h : v.operation? c m = some op) : Definition.IsRecordOf op v.endpoint.template m := by
  obtain ⟨_, _, _, hop⟩ := Definition.ofDefinition?_some (Visit.look_of_operation? h)
  exact Definition.operation_ok hop

theorem Visit.role_eq_method {op : Operation} (h : op ∈ v.operations c) : op.role = op.method := by
  obtain ⟨_, _, hop⟩ := List.mem_filterMap.1 h
  have hr := Visit.isRecordOf_of_operation? hop
  rw [hr.role_eq, hr.method_eq]

/-- What a visit finds has the role in which it was extracted. -/
theorem Visit.asExtracted_of_mem {op : Operation} (h : op ∈ v.operations c) :
    op.asExtracted = op := by
  have hrole : op.role = op.method := Visit.role_eq_method h
  cases op
  simp only [] at hrole
  subst hrole
  rfl

theorem Visit.map_asExtracted {ops : List Operation} (h : ∀ op ∈ ops, op ∈ v.operations c) :
    ops.map Operation.asExtracted = ops := by
  have hid : ∀ op ∈ ops, op.asExtracted = id op := fun op hop => Visit.asExtracted_of_mem (h op hop)
  rw [List.map_congr_left hid, List.map_id]

/-! ## Conservation -/

theorem map_asExtracted_relabel (pending : List (String × String)) (ops : List Operation) :
    (relabel pending ops).map Operation.asExtracted = ops.map Operation.asExtracted := by
  induction ops generalizing pending with
  | nil => rfl
  | cons op rest ih =>
      rw [relabel]
      split
      · rw [List.map_cons, List.map_cons, ih]
      · rw [List.map_cons, List.map_cons, ih]
        rfl

theorem Visit.map_asExtracted_carried :
    (v.carried nodes).map Operation.asExtracted =
      (operationsAt nodes v.segments).map Operation.asExtracted := by
  unfold Visit.carried
  split
  · exact map_asExtracted_relabel _ _
  · rfl

theorem perm_append_right_comm {α : Type} (as bs cs : List α) :
    (as ++ bs ++ cs).Perm (as ++ cs ++ bs) := by
  rw [List.append_assoc, List.append_assoc]
  exact List.perm_append_comm.append_left as

/-- A visit keeps what the table holds, and of what it finds it adds what it does not drop. -/
theorem perm_revise (hk : Keyed nodes) :
    (((v.revise c nodes).flatMap Node.operations).map Operation.asExtracted ++
        v.dropped c nodes).Perm
      ((nodes.flatMap Node.operations).map Operation.asExtracted ++ v.operations c) := by
  have hafter := perm_operationsAt_without (Visit.keyed_revise (c := c) (v := v) hk) v.segments
  rw [Visit.operationsAt_revise_self, Visit.without_revise] at hafter
  have hbefore := perm_operationsAt_without hk v.segments
  have hadded : (v.added c nodes).map Operation.asExtracted = v.added c nodes :=
    Visit.map_asExtracted fun op hop => (taken_sublist _ _ _).subset hop
  have hfound : (v.added c nodes ++ v.dropped c nodes).Perm (v.operations c) :=
    (perm_taken_refused _ _ _).symm
  generalize (without nodes v.segments).flatMap Node.operations = elsewhere at hafter hbefore
  refine ((hafter.map Operation.asExtracted).append_right _).trans ?_
  refine List.Perm.trans ?_ ((hbefore.map Operation.asExtracted).symm.append_right _)
  rw [List.map_append, List.map_append, List.map_append, Visit.map_asExtracted_carried, hadded]
  generalize (operationsAt nodes v.segments).map Operation.asExtracted = held
  generalize elsewhere.map Operation.asExtracted = others
  calc
    held ++ v.added c nodes ++ others ++ v.dropped c nodes
    List.Perm _ (held ++ others ++ v.added c nodes ++ v.dropped c nodes) :=
      (perm_append_right_comm held _ others).append_right _
    _ = held ++ others ++ (v.added c nodes ++ v.dropped c nodes) := List.append_assoc _ _ _
    List.Perm _ (held ++ others ++ v.operations c) := hfound.append_left _

theorem filterMap_warnings :
    (v.warnings c nodes).filterMap Note.droppedOperation? = v.dropped c nodes := by
  unfold Visit.warnings
  rw [List.filterMap_map]
  exact List.filterMap_some

/-- What a run leaves and what it drops is what was there and what its visits find. -/
theorem perm_run (hk : Keyed nodes) (vs : List Visit) :
    (((run c vs nodes).flatMap Node.operations).map Operation.asExtracted ++
        (runWarnings c vs nodes).filterMap Note.droppedOperation?).Perm
      ((nodes.flatMap Node.operations).map Operation.asExtracted ++
        vs.flatMap (Visit.operations c)) := by
  induction vs generalizing nodes with
  | nil => exact List.Perm.refl _
  | cons v rest ih =>
      have hrest := ih (Visit.keyed_revise (c := c) (v := v) hk)
      have hv := perm_revise (c := c) (v := v) hk
      rw [runWarnings, List.filterMap_append, filterMap_warnings, List.flatMap_cons]
      have hrun : run c (v :: rest) nodes = run c rest (v.revise c nodes) := rfl
      rw [hrun]
      generalize ((run c rest (v.revise c nodes)).flatMap Node.operations).map
        Operation.asExtracted = left at hrest ⊢
      generalize (runWarnings c rest (v.revise c nodes)).filterMap
        Note.droppedOperation? = lost at hrest ⊢
      generalize ((v.revise c nodes).flatMap Node.operations).map
        Operation.asExtracted = held at hrest hv
      calc
        left ++ (v.dropped c nodes ++ lost)
        _ = left ++ v.dropped c nodes ++ lost := (List.append_assoc _ _ _).symm
        List.Perm _ (left ++ lost ++ v.dropped c nodes) := perm_append_right_comm left _ lost
        List.Perm _ (held ++ rest.flatMap (Visit.operations c) ++ v.dropped c nodes) :=
          hrest.append_right _
        List.Perm _ (held ++ v.dropped c nodes ++ rest.flatMap (Visit.operations c)) :=
          perm_append_right_comm held _ _
        List.Perm _ (_ ++ v.operations c ++ rest.flatMap (Visit.operations c)) :=
          hv.append_right _
        _ = _ := List.append_assoc _ _ _

/-! ## Why an operation is dropped -/

/-- A warning of a run is a warning of one of its visits. -/
theorem mem_runWarnings {vs : List Visit} {w : Note} (h : w ∈ runWarnings c vs nodes) :
    ∃ before v after, vs = before ++ v :: after ∧ w ∈ v.warnings c (run c before nodes) := by
  induction vs generalizing nodes with
  | nil => cases h
  | cons v rest ih =>
      rw [runWarnings] at h
      rcases List.mem_append.1 h with hv | hrest
      · exact ⟨[], v, rest, rfl, hv⟩
      · obtain ⟨before, u, after, rfl, hu⟩ := ih hrest
        exact ⟨v :: before, u, after, rfl, hu⟩

/-- An operation that is not taken up stands behind one with its role: one that was there, or one
that was taken up before it. -/
theorem refused_split {find : String → Option Operation} {ms : List String} {ops : List Operation}
    {op : Operation} (h : op ∈ refused true ops (ms.filterMap find)) :
    ∃ done m todo, ms = done ++ m :: todo ∧ find m = some op ∧
      ∃ rival ∈ ops ++ taken true ops (done.filterMap find), rival.role = op.role := by
  induction ms generalizing ops with
  | nil => cases h
  | cons m rest ih =>
      cases hfind : find m with
      | none =>
          rw [List.filterMap_cons_none hfind] at h
          obtain ⟨done, m', todo, rfl, hop, hrival⟩ := ih h
          refine ⟨m :: done, m', todo, rfl, hop, ?_⟩
          rw [List.filterMap_cons_none hfind]
          exact hrival
      | some new =>
          rw [List.filterMap_cons_some hfind, refused] at h
          split at h
          · next hrole =>
              rcases List.mem_cons.1 h with rfl | hmem
              · -- The role is taken: whatever takes it is the rival.
                obtain ⟨rival, hrival, hsame⟩ := List.any_eq_true.1 hrole
                refine ⟨[], m, rest, rfl, hfind, rival, ?_, beq_iff_eq.1 hsame⟩
                exact List.mem_append_left _ hrival
              · obtain ⟨done, m', todo, rfl, hop, hrival⟩ := ih hmem
                refine ⟨m :: done, m', todo, rfl, hop, ?_⟩
                rw [List.filterMap_cons_some hfind, taken, if_pos hrole]
                exact hrival
          · next hrole =>
              obtain ⟨done, m', todo, rfl, hop, hrival⟩ := ih h
              refine ⟨m :: done, m', todo, rfl, hop, ?_⟩
              rw [List.filterMap_cons_some hfind, taken, if_neg hrole]
              rw [List.append_assoc] at hrival
              exact hrival

/-- Only a visit to a bare template drops operations, and only where there is a node. -/
theorem Visit.appends_of_mem_dropped {op : Operation} (h : op ∈ v.dropped c nodes) :
    v.isItem = false ∧ ∃ n, nodeAt nodes v.segments = some n ∧
      op ∈ refused true n.operations (v.operations c) := by
  unfold Visit.dropped Visit.carried at h
  cases happ : v.appends nodes with
  | false =>
      rw [happ, refused_false] at h
      cases h
  | true =>
      rw [happ] at h
      unfold Visit.appends at happ
      rw [Bool.and_eq_true, Bool.not_eq_true'] at happ
      obtain ⟨hitem, hsome⟩ := happ
      obtain ⟨n, hn⟩ := Option.isSome_iff_exists.1 hsome
      rw [hitem, operationsAt_of_nodeAt hn] at h
      exact ⟨hitem, n, hn, h⟩

/-- Operations are gathered where nothing fails that they are looked for in. -/
theorem gather_isOk {e : Endpoint} {item : Members} {ms : List String}
    (h : ∀ m ∈ ms, ∃ found, (Visit.look c ⟨e, item⟩ m).result = .ok found) (path : String)
    (appending : Bool) (ops : List Operation) :
    ∃ ops', (gather c e item path appending ms ops).result = .ok ops' := by
  induction ms generalizing ops with
  | nil => exact ⟨ops, rfl⟩
  | cons m rest ih =>
      obtain ⟨⟨found, hfound⟩, hrest⟩ := List.forall_mem_cons.1 h
      unfold Visit.look at hfound
      rw [gather, Logged.result_bind, hfound]
      cases found with
      | none => exact ih hrest ops
      | some op =>
          simp only [Bind.bind, Except.bind]
          split
          · exact ih hrest ops
          · exact ih hrest (ops ++ [op])

/-- A moment of a run: what was added before, the member and the method it has come to, the table
then and the node in it, and the operations held by that node once the earlier methods of the
member have been gone through. -/
structure Moment where
  before : Members
  cell : Option Nat
  item : Members
  after : Members
  table : List Node
  endpoint : Endpoint
  node : Node
  done : List String
  todo : List String
  held : List Operation

/-- The reason for dropping an operation: its template is bare, there is a node for its segments,
and that node holds an operation with its role. Unless a method is asked for twice, the node held
that one before the template was come to. -/
structure IsRefusal (c : Conventions) (paths : Members) (raw path : String) (op : Operation)
    (t : Moment) : Prop where
  ordered_eq : ordered paths = t.before ++ (.str raw, .map t.cell t.item) :: t.after
  table_eq : (addMembers c t.before []).result = .ok t.table
  endpoint_eq : Endpoint.ofTemplate c.rules raw = .ok t.endpoint
  bare : t.endpoint.isParameterized = false
  node_eq : nodeAt t.table t.endpoint.segments = some t.node
  path_eq : path = t.node.path
  methods_eq : c.methods = t.done ++ op.method :: t.todo
  found_eq : (Operation.ofDefinition? c.methods t.endpoint.template op.method
    (Members.find t.item op.method)).result = .ok (some op)
  held_eq : (gather c t.endpoint t.item path true t.done t.node.operations).result = .ok t.held
  rival : ∃ rival ∈ t.held, rival.role = op.role
  earlier_rival : c.methods.Nodup → ∃ rival ∈ t.node.operations, rival.role = op.role

/-- Where no method is asked for twice, an operation and its rival are not from one path item. -/
theorem mem_of_rival {done todo : List String} {op rival : Operation} {ops : List Operation}
    (hm : c.methods = done ++ op.method :: todo) (hn : c.methods.Nodup)
    (hop : op.role = op.method)
    (hrival : rival ∈ ops ++ taken true ops (done.filterMap (v.operation? c)))
    (hsame : rival.role = op.role) : rival ∈ ops := by
  rcases List.mem_append.1 hrival with hmem | htaken
  · exact hmem
  · exfalso
    obtain ⟨m, hdone, hfind⟩ := List.mem_filterMap.1 ((taken_sublist _ _ _).subset htaken)
    have hr := Visit.isRecordOf_of_operation? hfind
    have hmop : m = op.method := by rw [← hr.role_eq, hsame, hop]
    rw [hm, List.nodup_append] at hn
    exact hn.2.2 m hdone op.method List.mem_cons_self hmop

/-- Each warning of a successful merge is about an operation, and there is a reason for it. -/
theorem isRefusal_of_mem_warnings {paths : Members} (h : (merge c paths).result = .ok nodes)
    {w : Note} (hw : w ∈ (merge c paths).warnings) :
    ∃ raw path op t, w = .dropped raw path op ∧ IsRefusal c paths raw path op t := by
  obtain ⟨hread, -, hwarn⟩ := merge_ok h
  rw [merge_eq_of_ok h] at h
  rw [hwarn] at hw
  obtain ⟨earlier, v, later, hvs, hv⟩ := mem_runWarnings hw
  obtain ⟨before, m, after, hsplit, hbefore, hm, -⟩ := visits_eq_append_cons hvs
  obtain ⟨cell, rfl, hendpoint⟩ := Visit.ofMember?_some hm
  -- The run comes to the visit in the table of the members before it.
  obtain ⟨table, htable⟩ := addMembers_isOk_of_prefix (hsplit ▸ List.prefix_append before _) h
  obtain ⟨-, hrun, -⟩ := addMembers_ok htable
  rw [hbefore] at hrun
  rw [← hrun] at hv
  -- There it drops an operation of one of its methods, behind a rival.
  obtain ⟨op, hop, rfl⟩ := List.mem_map.1 hv
  obtain ⟨hbare, n, hnode, hrefused⟩ := Visit.appends_of_mem_dropped hop
  obtain ⟨done, method, todo, hmethods, hfind, rival, hrival, hsame⟩ := refused_split hrefused
  have hrecord := Visit.isRecordOf_of_operation? hfind
  rw [← hrecord.method_eq] at hmethods hfind
  have hlook := Visit.look_of_operation? hfind
  -- The methods before that one are gone through without a failure.
  have hvread : v.IsReadable c := by
    obtain ⟨u, hu, hread⟩ := hread _ ((ordered_perm paths).mem_iff.1
      (hsplit ▸ List.mem_append_right _ List.mem_cons_self)) rfl
    rw [hm] at hu
    cases hu
    exact hread
  have hsub : done ⊆ c.methods := fun m hmem => hmethods ▸ List.mem_append_left _ hmem
  have hdone : ∀ m ∈ done, ∃ found, (v.look c m).result = .ok found := fun m hmem =>
    hvread m (hsub hmem)
  obtain ⟨held, hheld⟩ := gather_isOk hdone ("/".intercalate v.segments) true n.operations
  obtain ⟨-, hops, -⟩ := gather_ok hsub hheld
  refine ⟨_, _, op, ⟨before, cell, v.item, after, table, v.endpoint, n, done, todo, held⟩, rfl, ?_⟩
  exact {
    ordered_eq := hsplit
    table_eq := htable
    endpoint_eq := hendpoint
    bare := hbare
    node_eq := hnode
    path_eq := by rw [Node.path, segments_of_nodeAt hnode]
    methods_eq := hmethods
    found_eq := hlook
    held_eq := hheld
    rival := ⟨rival, hops ▸ hrival, hsame⟩
    earlier_rival := fun hnodup =>
      ⟨rival, mem_of_rival hmethods hnodup (hrecord.role_eq.trans hrecord.method_eq.symm) hrival
        hsame, hsame⟩
  }

/-- The operations that the path items define are those that the merge holds, with their roles
forgotten, and those that it warns about, each as often. -/
theorem merge_conserves_operations {c : Conventions} {paths : Members} {nodes : List Node}
    (h : (merge c paths).result = .ok nodes) :
    IsReadable c paths ∧
    ((visits c paths).flatMap (Visit.operations c)).Perm
      ((nodes.flatMap Node.operations).map Operation.asExtracted ++
        (merge c paths).warnings.filterMap Note.droppedOperation?) ∧
    (∀ w ∈ (merge c paths).warnings, ∃ raw path op t,
      w = .dropped raw path op ∧ IsRefusal c paths raw path op t) ∧
    (∀ s, (∃ n ∈ nodes, n.segments = s) ↔ Yields c paths s) ∧
    ∀ n ∈ nodes, n.operations ≠ [] := by
  obtain ⟨hread, hrun, hwarn⟩ := merge_ok h
  refine ⟨hread, ?_, fun w hw => isRefusal_of_mem_warnings h hw, exists_merged_iff h,
    (isTable_merge h).full⟩
  have hperm := perm_run (c := c) keyed_nil (visits c (ordered paths))
  rw [← hrun, ← hwarn] at hperm
  exact ((visits_ordered_perm c paths).symm.flatMap_right _).trans hperm.symm

/-! ## Shelves

A small mapping with all that can happen: a collection, a second template for
the same segments, one of whose operations is dropped, and the template of
the items, which gives the collection's operation a new role. -/

/-- A definition with nothing but an id and a response. -/
def shelfDefinition (id : String) : Value :=
  .ofMembers [(.str "operationId", .str id),
    (.str "responses", .ofMembers [(.str "200", .ofMembers [])])]

/-- The operation that such a definition describes, in some role. -/
def shelfOperation (endpoint method role id : String) : Operation :=
  ⟨endpoint, method, role, id, none, none, none, none, none, none,
    Template.isParameterized endpoint, none, none, none, none, none⟩

def shelfConventions : Conventions := ⟨[], [], [], ["get", "post"]⟩

def shelfPaths : Members :=
  [(.str "/a",
      .ofMembers [(.str "get", shelfDefinition "list"), (.str "post", shelfDefinition "add")]),
   (.str "/\x7bt\x7d/a", .ofMembers [(.str "get", shelfDefinition "listOne")]),
   (.str "/\x7bt\x7d/a/\x7bx\x7d", .ofMembers [(.str "get", shelfDefinition "read")])]

def shelfNode : Node where
  segments := ["a"]
  parameter := some "x"
  defaultParameter := none
  operations :=
    [shelfOperation "/a" "get" "list" "list", shelfOperation "/a" "post" "post" "add",
      shelfOperation "/\x7bt\x7d/a/\x7bx\x7d" "get" "get" "read"]
  endpoint := some "/\x7bt\x7d/a/\x7bx\x7d"

theorem ordered_shelfPaths : ordered shelfPaths = shelfPaths :=
  List.mergeSort_of_pairwise (by decide +kernel)

theorem merge_shelfPaths :
    merge shelfConventions shelfPaths = addMembers shelfConventions shelfPaths [] := by
  rw [merge, if_pos (by decide +kernel), ordered_shelfPaths]

theorem result_merge_shelfPaths : (merge shelfConventions shelfPaths).result = .ok [shelfNode] := by
  rw [merge_shelfPaths]
  rfl

theorem merge_conserves_operations_of_shelves :
    (merge shelfConventions shelfPaths).result = .ok [shelfNode] ∧
    ((visits shelfConventions shelfPaths).flatMap (Visit.operations shelfConventions)).Perm
      [shelfOperation "/a" "get" "get" "list", shelfOperation "/a" "post" "post" "add",
        shelfOperation "/\x7bt\x7d/a/\x7bx\x7d" "get" "get" "read",
        shelfOperation "/\x7bt\x7d/a" "get" "get" "listOne"] := by
  obtain ⟨-, hperm, -⟩ := merge_conserves_operations result_merge_shelfPaths
  rw [merge_shelfPaths] at hperm
  exact ⟨result_merge_shelfPaths, hperm⟩

end Tree

end ApiOutline
