import ApiOutline.Proofs.Tree.Conservation
import ApiOutline.Proofs.Value.Members

/-!
# The roles that operations end with

The merge relabels step by step: each visit to an item gives new roles to
operations that stand at its segments, to the first one for each role that it
repeats, and other templates may add operations between two such visits. What
comes of it has a closed form. An operation keeps its method for a role unless
an item with the same segments is visited later that has the method for a key;
then it ends with the collection's role (`roleAfter`).

The closed form rests on one invariant. No node ever holds two operations with
a role that can be replaced (`Singular`), so that "the first one" is the only
one, and relabelling is a map (`relabel_eq_map`).
-/

namespace ApiOutline

/-- No two members have the same key, as in every mapping. -/
def Members.Distinct (ms : Members) : Prop :=
  ms.Pairwise fun a b => Value.sameKey a.1 b.1 = false

instance (ms : Members) : Decidable (Members.Distinct ms) :=
  inferInstanceAs (Decidable (List.Pairwise _ ms))

namespace Tree

variable {c : Conventions} {v : Visit} {nodes : List Node}

/-! ## Relabelling at once -/

theorem lookup_filter_fst (wanted : String → Bool) (pending : List (String × String)) (r : String) :
    (pending.filter fun p => wanted p.1).lookup r =
      if wanted r then pending.lookup r else none := by
  induction pending with
  | nil => simp
  | cons p rest ih =>
      obtain ⟨k, role⟩ := p
      rw [List.filter_cons, List.lookup_cons]
      cases hr : r == k with
      | true =>
          obtain rfl := beq_iff_eq.1 hr
          by_cases hw : wanted r = true
          · rw [if_pos hw, if_pos hw, List.lookup_cons_self]
          · rw [if_neg hw, if_neg hw, ih, if_neg hw]
      | false =>
          rw [← ih]
          split
          · rw [List.lookup_cons, hr]
          · rfl

/-- An operation in the role that replaces its own, if one does. -/
def renamed (pending : List (String × String)) (op : Operation) : Operation :=
  { op with role := (pending.lookup op.role).getD op.role }

/-- The number of operations with a role. -/
def countRole (role : String) (ops : List Operation) : Nat :=
  ops.countP fun op => op.role == role

theorem countRole_cons (role : String) (op : Operation) (ops : List Operation) :
    countRole role (op :: ops) = countRole role ops + if op.role = role then 1 else 0 := by
  rw [countRole, List.countP_cons]
  simp only [beq_iff_eq]
  rfl

theorem countRole_append (role : String) (ops ops' : List Operation) :
    countRole role (ops ++ ops') = countRole role ops + countRole role ops' :=
  List.countP_append

/-- Where each role to be replaced is held once, replacing the first is replacing all. -/
theorem relabel_eq_map {pending : List (String × String)} {ops : List Operation}
    (h : ∀ r, (pending.lookup r).isSome = true → countRole r ops ≤ 1) :
    relabel pending ops = ops.map (renamed pending) := by
  induction ops generalizing pending with
  | nil => rfl
  | cons op rest ih =>
      have hrest : ∀ r, (pending.lookup r).isSome = true → countRole r rest ≤ 1 := by
        intro r hr
        have hle := h r hr
        rw [countRole_cons] at hle
        omega
      rw [relabel, List.map_cons]
      split
      · next hnone =>
          rw [ih hrest, renamed, hnone]
          rfl
      · next role hsome =>
          have hzero : countRole op.role rest = 0 := by
            have hone := h op.role (by rw [hsome]; rfl)
            rw [countRole_cons, if_pos rfl] at hone
            omega
          rw [ih, renamed, hsome]
          · -- What is no longer pending is held by none of the others.
            refine congrArg _ (List.map_congr_left fun op' hop' => ?_)
            have hne : op'.role ≠ op.role := by
              have hno := List.countP_eq_zero.1 hzero op' hop'
              exact fun heq => hno (beq_iff_eq.2 heq)
            rw [renamed, renamed, lookup_filter_fst (· != op.role), if_pos (bne_iff_ne.2 hne)]
          · intro r hr
            rw [lookup_filter_fst (· != op.role)] at hr
            split at hr
            · exact hrest r hr
            · cases hr

/-! ## One operation for a role that can be replaced -/

/-- No role that can be replaced is held twice. -/
def Singular (ops : List Operation) : Prop :=
  ∀ r, (collectionRoles.lookup r).isSome = true → countRole r ops ≤ 1

theorem singular_nil : Singular [] := fun _ _ => Nat.zero_le 1

theorem lookup_pendingRoles (item : Members) (r : String) :
    (pendingRoles item).lookup r =
      if Members.has item (.str r) then collectionRoles.lookup r else none :=
  lookup_filter_fst (fun m => Members.has item (.str m)) collectionRoles r

/-- What replaces a role is not replaced itself. -/
theorem lookup_of_lookup_collectionRoles {r role : String}
    (h : collectionRoles.lookup r = some role) : collectionRoles.lookup role = none := by
  unfold collectionRoles at h ⊢
  simp only [List.lookup_cons, List.lookup_nil] at h
  split at h
  · cases h; rfl
  · split at h
    · cases h; rfl
    · cases h

theorem nodup_map_method_operations (hm : c.methods.Nodup) :
    ((v.operations c).map Operation.method).Nodup := by
  refine List.Nodup.sublist ?_ hm
  have h : ∀ ms : List String,
      ((ms.filterMap (v.operation? c)).map Operation.method).Sublist ms := by
    intro ms
    induction ms with
    | nil => exact List.Sublist.refl _
    | cons m rest ih =>
        cases hop : v.operation? c m with
        | none =>
            rw [List.filterMap_cons_none hop]
            exact ih.cons m
        | some op =>
            rw [List.filterMap_cons_some hop, List.map_cons,
              (Visit.isRecordOf_of_operation? hop).method_eq]
            exact ih.cons_cons m
  exact h c.methods

theorem countRole_operations_le (hm : c.methods.Nodup) (r : String) :
    countRole r (v.operations c) ≤ 1 := by
  have hcount : countRole r (v.operations c) = ((v.operations c).map Operation.method).count r := by
    rw [countRole, List.count, List.countP_map]
    refine List.countP_congr fun op hop => ?_
    rw [Function.comp_apply, Visit.role_eq_method hop]
  rw [hcount]
  exact List.nodup_iff_count.1 (nodup_map_method_operations hm) r

theorem Visit.has_of_operation? {m : String} {op : Operation} (h : v.operation? c m = some op) :
    Members.has v.item (.str m) = true := by
  obtain ⟨cell, ms, hmap, -⟩ := Definition.ofDefinition?_some (Visit.look_of_operation? h)
  exact Members.has_of_find_ne_null (hmap ▸ Value.noConfusion)

/-- What has no definition under a key finds no operation. -/
theorem countRole_operations_eq_zero {r : String} (h : Members.has v.item (.str r) = false) :
    countRole r (v.operations c) = 0 := by
  refine List.countP_eq_zero.2 fun op hop heq => ?_
  obtain ⟨m, -, hfind⟩ := List.mem_filterMap.1 hop
  have hr : m = r := (Visit.isRecordOf_of_operation? hfind).role_eq.symm.trans (beq_iff_eq.1 heq)
  have hhas := Visit.has_of_operation? hfind
  rw [hr, h] at hhas
  cases hhas

/-- Behind others, an operation is taken up only if its role is free. -/
theorem countRole_taken_true {ops new : List Operation} {r : String} (h : countRole r ops ≤ 1) :
    countRole r (ops ++ taken true ops new) ≤ 1 := by
  induction new generalizing ops with
  | nil =>
      rw [taken, List.append_nil]
      exact h
  | cons op rest ih =>
      rw [taken]
      split
      · exact ih h
      · next hfree =>
          rw [List.append_cons]
          refine ih ?_
          rw [countRole_append, countRole_cons]
          split
          · next heq =>
              have hzero : countRole r ops = 0 := by
                refine List.countP_eq_zero.2 fun op' hop' hsame => hfree ?_
                rw [Bool.true_and, List.any_eq_true]
                exact ⟨op', hop', by rw [heq]; exact hsame⟩
              rw [hzero]
              exact Nat.le_refl 1
          · exact h

/-- Whether a visit is to an item at some segments that has a method for a key. -/
def Visit.repeats (v : Visit) (s : List String) (method : String) : Bool :=
  v.segments == s && v.isItem && Members.has v.item (.str method)

/-- The role that an operation at some segments ends with when some visits follow: where an item
among them repeats the role, the collection's role for it. -/
def roleAfter (later : List Visit) (s : List String) (role : String) : String :=
  if later.any fun v => v.repeats s role then (collectionRoles.lookup role).getD role else role

theorem roleAfter_of_lookup_eq_none (later : List Visit) (s : List String) {role : String}
    (h : collectionRoles.lookup role = none) : roleAfter later s role = role := by
  unfold roleAfter
  rw [h]
  exact ite_self role

/-- What follows one visit acts on what that visit has made of a role. -/
theorem roleAfter_cons (v : Visit) (later : List Visit) (s : List String) (role : String) :
    roleAfter (v :: later) s role = roleAfter later s (roleAfter [v] s role) := by
  cases hl : collectionRoles.lookup role with
  | none =>
      rw [roleAfter_of_lookup_eq_none _ s hl, roleAfter_of_lookup_eq_none [v] s hl,
        roleAfter_of_lookup_eq_none _ s hl]
  | some role' =>
      cases hv : v.repeats s role with
      | true =>
          have hone : roleAfter [v] s role = role' := by
            simp [roleAfter, hv, hl]
          have hall : roleAfter (v :: later) s role = role' := by
            simp [roleAfter, hv, hl]
          rw [hall, hone, roleAfter_of_lookup_eq_none _ s (lookup_of_lookup_collectionRoles hl)]
      | false =>
          have hone : roleAfter [v] s role = role := by
            simp [roleAfter, hv]
          rw [hone, roleAfter, List.any_cons, hv, Bool.false_or]
          rfl

theorem renamed_pendingRoles (hv : v.isItem = true) (op : Operation) :
    renamed (pendingRoles v.item) op = { op with role := roleAfter [v] v.segments op.role } := by
  have hrole : ((pendingRoles v.item).lookup op.role).getD op.role =
      roleAfter [v] v.segments op.role := by
    unfold roleAfter Visit.repeats
    rw [lookup_pendingRoles, List.any_cons, List.any_nil, Bool.or_false, hv, beq_self_eq_true,
      Bool.true_and, Bool.true_and]
    split
    · rfl
    · rfl
  rw [renamed, hrole]

theorem carried_eq_map (h : Singular (operationsAt nodes v.segments)) :
    v.carried nodes = (operationsAt nodes v.segments).map fun op =>
      { op with role := roleAfter [v] v.segments op.role } := by
  unfold Visit.carried
  cases hv : v.isItem with
  | true =>
      rw [if_pos rfl, relabel_eq_map]
      · exact List.map_congr_left fun op _ => renamed_pendingRoles hv op
      · intro r hr
        rw [lookup_pendingRoles] at hr
        split at hr
        · exact h r hr
        · cases hr
  | false =>
      have hsame : ∀ op : Operation, { op with role := roleAfter [v] v.segments op.role } = op := by
        intro op
        have hrole : roleAfter [v] v.segments op.role = op.role := by
          simp [roleAfter, Visit.repeats, hv]
        rw [hrole]
      rw [if_neg Bool.false_ne_true]
      simp only [hsame, List.map_id']

/-- After a visit, an operation has a role that can be replaced only if it had it before. -/
theorem roleAfter_eq_iff {s : List String} {r role : String}
    (hr : (collectionRoles.lookup r).isSome = true) :
    roleAfter [v] s role = r ↔ role = r ∧ v.repeats s r = false := by
  have hnone : collectionRoles.lookup role ≠ some r := by
    intro h
    rw [lookup_of_lookup_collectionRoles h] at hr
    cases hr
  unfold roleAfter
  rw [List.any_cons, List.any_nil, Bool.or_false]
  constructor
  · intro h
    split at h
    · cases hl : collectionRoles.lookup role with
      | none =>
          rw [hl] at h
          subst h
          rw [Option.getD_none, hl] at hr
          cases hr
      | some role' =>
          rw [hl] at h
          exact absurd (h ▸ hl) hnone
    · next hv => exact ⟨h, by rw [← h]; exact Bool.not_eq_true _ ▸ hv⟩
  · rintro ⟨rfl, hv⟩
    rw [hv, if_neg Bool.false_ne_true]

theorem countRole_carried (h : Singular (operationsAt nodes v.segments)) {r : String}
    (hr : (collectionRoles.lookup r).isSome = true) :
    countRole r (v.carried nodes) =
      if v.repeats v.segments r then 0 else countRole r (operationsAt nodes v.segments) := by
  rw [carried_eq_map h, countRole, List.countP_map]
  split
  · next hv =>
      refine List.countP_eq_zero.2 fun op _ heq => ?_
      have hrole := (roleAfter_eq_iff hr).1 (beq_iff_eq.1 heq)
      rw [hv] at hrole
      cases hrole.2
  · next hv =>
      refine List.countP_congr fun op _ => ?_
      simp only [Function.comp_apply, beq_iff_eq, roleAfter_eq_iff hr]
      exact ⟨fun h => h.1, fun h => ⟨h, Bool.not_eq_true _ ▸ hv⟩⟩

/-- No visit makes a node hold twice a role that can be replaced. -/
theorem singular_revise (hm : c.methods.Nodup) (h : Singular (operationsAt nodes v.segments)) :
    Singular (operationsAt (v.revise c nodes) v.segments) := by
  intro r hr
  have hold := h r hr
  have hcarried := countRole_carried h hr
  have hnew : countRole r (v.operations c) ≤ 1 := countRole_operations_le hm r
  rw [Visit.operationsAt_revise_self, Visit.added]
  cases happ : v.appends nodes with
  | true =>
      refine countRole_taken_true ?_
      rw [hcarried]
      split
      · exact Nat.zero_le 1
      · exact hold
  | false =>
      rw [taken_false, countRole_append, hcarried]
      split
      · rw [Nat.zero_add]
        exact hnew
      · next hrep =>
          -- Either the item has no such key, or a bare template comes first.
          unfold Visit.appends at happ
          unfold Visit.repeats at hrep
          rw [beq_self_eq_true, Bool.true_and, Bool.not_eq_true] at hrep
          cases hitem : v.isItem with
          | true =>
              rw [hitem, Bool.true_and] at hrep
              rw [countRole_operations_eq_zero hrep]
              exact hold
          | false =>
              rw [hitem, Bool.not_false, Bool.true_and, Option.isSome_eq_false_iff,
                Option.isNone_iff_eq_none] at happ
              rw [operationsAt_eq_nil happ]
              exact (Nat.zero_add _).symm ▸ hnew

theorem singular_run (hm : c.methods.Nodup) (h : ∀ s, Singular (operationsAt nodes s))
    (vs : List Visit) (s : List String) : Singular (operationsAt (run c vs nodes) s) := by
  induction vs generalizing nodes with
  | nil => exact h s
  | cons v rest ih =>
      refine ih fun t => ?_
      by_cases ht : v.segments = t
      · subst ht
        exact singular_revise hm (h v.segments)
      · rw [Visit.operationsAt_revise_of_ne ht]
        exact h t

/-! ## Where an operation comes from -/

/-- An operation with the visit that found it and the visits that follow. -/
structure Extraction where
  visit : Visit
  later : List Visit
  operation : Operation

namespace Extraction

/-- The operation in the role that it ends with. -/
def final (x : Extraction) : Operation :=
  { x.operation with role := roleAfter x.later x.visit.segments x.operation.method }

/-- Whether a warning says that an operation was dropped. -/
def isDropped (warnings : List Note) (x : Extraction) : Bool :=
  warnings.any fun
    | .dropped raw _ op => raw == x.visit.endpoint.raw && op.method == x.operation.method
    | _ => false

end Extraction

/-- All operations that some visits find. -/
def extractions (c : Conventions) : List Visit → List Extraction
  | [] => []
  | v :: later => (v.operations c).map (fun op => ⟨v, later, op⟩) ++ extractions c later

/-- The operations that some visits add. -/
def additions (c : Conventions) : List Visit → List Node → List Extraction
  | [], _ => []
  | v :: later, nodes =>
      (v.added c nodes).map (fun op => ⟨v, later, op⟩) ++ additions c later (v.revise c nodes)

theorem mem_operations_of_mem_added {op : Operation} (h : op ∈ v.added c nodes) :
    op ∈ v.operations c :=
  (taken_sublist _ _ _).subset h

/-- Each operation at some segments has the role that the visits after it leave to it. -/
theorem operationsAt_run (hm : c.methods.Nodup) (h : ∀ s, Singular (operationsAt nodes s))
    (vs : List Visit) (s : List String) :
    operationsAt (run c vs nodes) s =
      (operationsAt nodes s).map (fun op => { op with role := roleAfter vs s op.role }) ++
        ((additions c vs nodes).filter fun x => x.visit.segments == s).map Extraction.final := by
  induction vs generalizing nodes with
  | nil =>
      rw [additions, List.filter_nil, List.map_nil, List.append_nil]
      exact (List.map_id' _).symm
  | cons v later ih =>
      have hrun : run c (v :: later) nodes = run c later (v.revise c nodes) := rfl
      have hstep : ∀ t, Singular (operationsAt (v.revise c nodes) t) := fun t =>
        singular_run hm h [v] t
      rw [hrun, ih hstep, additions, List.filter_append, List.map_append, ← List.append_assoc]
      refine congrArg (· ++ _) ?_
      by_cases hs : v.segments = s
      · subst hs
        rw [Visit.operationsAt_revise_self, carried_eq_map (h v.segments), List.map_append,
          List.map_map]
        have hfilter : ((v.added c nodes).map fun op => (⟨v, later, op⟩ : Extraction)).filter
            (fun x => x.visit.segments == v.segments) =
              (v.added c nodes).map fun op => ⟨v, later, op⟩ := by
          refine List.filter_eq_self.2 fun x hx => ?_
          obtain ⟨op, -, rfl⟩ := List.mem_map.1 hx
          exact beq_self_eq_true _
        rw [hfilter, List.map_map]
        congr 1
        · refine List.map_congr_left fun op _ => ?_
          simp only [Function.comp_apply]
          rw [← roleAfter_cons]
        · -- What is added has its method for a role, and what follows acts on that.
          refine List.map_congr_left fun op hop => ?_
          rw [Function.comp_apply, Extraction.final,
            Visit.role_eq_method (mem_operations_of_mem_added hop)]
      · rw [Visit.operationsAt_revise_of_ne hs, List.filter_map, List.filter_eq_nil_iff.2]
        · rw [List.map_nil, List.map_nil, List.append_nil]
          refine List.map_congr_left fun op _ => ?_
          have hskip : v.repeats s op.role = false := by
            rw [Visit.repeats, beq_eq_false_iff_ne.2 hs, Bool.false_and, Bool.false_and]
          rw [roleAfter, roleAfter, List.any_cons, hskip, Bool.false_or]
        · intro op _ heq
          exact hs (beq_iff_eq.1 heq)

/-! ## What is added is what no warning names -/

theorem mem_refused_method {appending : Bool} {ops new : List Operation} {op : Operation}
    (h : op ∈ refused appending ops new) : op.method ∈ new.map Operation.method :=
  List.mem_map_of_mem ((refused_sublist _ _ _).subset h)

/-- Operations of different methods are told apart by their methods. -/
theorem taken_eq_filter {appending : Bool} {ops new : List Operation}
    (h : (new.map Operation.method).Nodup) :
    taken appending ops new =
      new.filter fun op => !(refused appending ops new).any (·.method == op.method) := by
  induction new generalizing ops with
  | nil => rfl
  | cons op rest ih =>
      rw [List.map_cons, List.nodup_cons] at h
      obtain ⟨hnot, hrest⟩ := h
      have hne : ∀ op' ∈ rest, (op.method == op'.method) = false := by
        intro op' hop'
        refine beq_eq_false_iff_ne.2 fun heq => hnot ?_
        rw [heq]
        exact List.mem_map_of_mem hop'
      rw [taken, refused]
      split
      · rw [List.filter_cons_of_neg (by simp), ih hrest]
        refine List.filter_congr fun op' hop' => ?_
        rw [List.any_cons, hne op' hop', Bool.false_or]
      · rw [List.filter_cons_of_pos, ih hrest]
        rw [Bool.not_eq_true', List.any_eq_false]
        intro op' hop' heq
        exact hnot (beq_iff_eq.1 heq ▸ mem_refused_method hop')

namespace Extraction

theorem isDropped_append (ws ws' : List Note) (x : Extraction) :
    x.isDropped (ws ++ ws') = (x.isDropped ws || x.isDropped ws') :=
  List.any_append

theorem isDropped_warnings (x : Extraction) :
    x.isDropped (v.warnings c nodes) =
      (v.endpoint.raw == x.visit.endpoint.raw &&
        (v.dropped c nodes).any fun op => op.method == x.operation.method) := by
  rw [isDropped, Visit.warnings, List.any_map]
  induction v.dropped c nodes with
  | nil => exact (Bool.and_false _).symm
  | cons op rest ih =>
      rw [List.any_cons, List.any_cons, ih, Function.comp_apply, Bool.and_or_distrib_left]

theorem isDropped_warnings_of_ne {x : Extraction} (h : x.visit.endpoint.raw ≠ v.endpoint.raw) :
    x.isDropped (v.warnings c nodes) = false := by
  rw [isDropped_warnings, beq_eq_false_iff_ne.2 h.symm, Bool.false_and]

theorem isDropped_runWarnings_of_notMem {x : Extraction} {vs : List Visit}
    (h : x.visit.endpoint.raw ∉ vs.map fun v => v.endpoint.raw) :
    x.isDropped (runWarnings c vs nodes) = false := by
  induction vs generalizing nodes with
  | nil => rfl
  | cons v later ih =>
      rw [List.map_cons, List.mem_cons, not_or] at h
      rw [runWarnings, isDropped_append, isDropped_warnings_of_ne h.1, ih h.2, Bool.false_or]

end Extraction

theorem visit_mem_of_mem_extractions {vs : List Visit} {x : Extraction}
    (h : x ∈ extractions c vs) : x.visit ∈ vs := by
  induction vs with
  | nil => cases h
  | cons v later ih =>
      rw [extractions] at h
      rcases List.mem_append.1 h with hv | hlater
      · obtain ⟨op, -, rfl⟩ := List.mem_map.1 hv
        exact List.mem_cons_self
      · exact List.mem_cons_of_mem _ (ih hlater)

/-- Where templates and methods tell operations apart, those added are those not named. -/
theorem additions_eq_filter (hm : c.methods.Nodup) {vs : List Visit}
    (hraw : (vs.map fun v => v.endpoint.raw).Nodup) :
    additions c vs nodes =
      (extractions c vs).filter fun x => !x.isDropped (runWarnings c vs nodes) := by
  induction vs generalizing nodes with
  | nil => rfl
  | cons v later ih =>
      rw [List.map_cons, List.nodup_cons] at hraw
      obtain ⟨hnot, hlater⟩ := hraw
      rw [additions, extractions, runWarnings, List.filter_append, ih hlater]
      congr 1
      · rw [Visit.added, taken_eq_filter (nodup_map_method_operations hm), List.filter_map]
        refine congrArg _ (List.filter_congr fun op _ => ?_)
        rw [Function.comp_apply, Extraction.isDropped_append, Extraction.isDropped_warnings,
          Extraction.isDropped_runWarnings_of_notMem hnot, beq_self_eq_true, Bool.true_and,
          Bool.or_false]
        rfl
      · refine List.filter_congr fun x hx => ?_
        have hne : x.visit.endpoint.raw ≠ v.endpoint.raw := by
          intro heq
          refine hnot (heq ▸ ?_)
          exact List.mem_map_of_mem (visit_mem_of_mem_extractions hx)
        rw [Extraction.isDropped_append, Extraction.isDropped_warnings_of_ne hne, Bool.false_or]

/-! ## The closed form -/

/-- The templates of a mapping tell its visits apart. -/
theorem nodup_raw_visits {paths : Members} (h : Members.Distinct paths) :
    ((visits c (ordered paths)).map fun v => v.endpoint.raw).Nodup := by
  refine ((visits_ordered_perm c paths).map _).nodup_iff.2 ?_
  rw [List.Nodup, List.pairwise_map, visits, List.pairwise_filterMap]
  refine h.imp fun hkeys v hv w hw heq => ?_
  obtain ⟨_, hv, -⟩ := Visit.ofMember?_some hv
  obtain ⟨_, hw, -⟩ := Visit.ofMember?_some hw
  rw [hv, hw, heq] at hkeys
  simp [Value.sameKey] at hkeys

/-- Templates are visited from short to long. The operations of a node are those found at its
segments and not named by a warning, in the order in which they are visited and with the roles that
the visits after them leave to them. No table on the way has a node that holds a role twice which
can be replaced. -/
theorem merge_gives_final_roles {c : Conventions} {paths : Members} {nodes : List Node}
    (hm : c.methods.Nodup) (hp : Members.Distinct paths)
    (h : (merge c paths).result = .ok nodes) :
    IsSorting (fun m => (templateLength m.1).getD 0) paths (ordered paths) ∧
    (∀ n ∈ nodes, n.operations =
      ((extractions c (visits c (ordered paths))).filter fun x =>
        x.visit.segments == n.segments && !x.isDropped (merge c paths).warnings).map
          Extraction.final) ∧
    ∀ before, before <+: ordered paths →
      ∃ table, (addMembers c before []).result = .ok table ∧
        ∀ n ∈ table, countRole "get" n.operations ≤ 1 ∧ countRole "delete" n.operations ≤ 1 := by
  obtain ⟨-, hrun, hwarn⟩ := merge_ok h
  have hnil : ∀ s, Singular (operationsAt [] s) := fun _ => singular_nil
  refine ⟨isSorting_ordered paths, ?_, ?_⟩
  · intro n hn
    rw [← operationsAt_of_mem (isTable_merge h).keyed hn, hwarn, hrun, operationsAt_run hm hnil,
      additions_eq_filter hm (nodup_raw_visits hp), List.filter_filter]
    rfl
  · intro before hbefore
    rw [merge_eq_of_ok h] at h
    obtain ⟨table, htable⟩ := addMembers_isOk_of_prefix hbefore h
    refine ⟨table, htable, fun n hn => ?_⟩
    obtain ⟨-, rfl, -⟩ := addMembers_ok htable
    have hsingular := singular_run hm hnil (visits c before) n.segments
    rw [operationsAt_of_mem (isTable_run isTable_nil _).keyed hn] at hsingular
    exact ⟨hsingular "get" rfl, hsingular "delete" rfl⟩

theorem merge_gives_final_roles_of_shelves :
    (merge shelfConventions shelfPaths).result = .ok [shelfNode] ∧
    shelfConventions.methods.Nodup ∧ Members.Distinct shelfPaths ∧
    shelfNode.operations =
      ((extractions shelfConventions (visits shelfConventions shelfPaths)).filter fun x =>
        x.visit.segments == ["a"] && !x.isDropped [.dropped "/\x7bt\x7d/a" "a"
          (shelfOperation "/\x7bt\x7d/a" "get" "get" "listOne")]).map Extraction.final := by
  have hm : shelfConventions.methods.Nodup := by decide
  have hp : Members.Distinct shelfPaths := by decide +kernel
  have h := (merge_gives_final_roles hm hp result_merge_shelfPaths).2.1 shelfNode
    List.mem_cons_self
  rw [merge_shelfPaths, ordered_shelfPaths] at h
  exact ⟨result_merge_shelfPaths, hm, hp, h⟩

end Tree

end ApiOutline
