import ApiOutline.Proofs.Tree.Bridges
import ApiOutline.Proofs.Tree.Conservation
import ApiOutline.Proofs.Value.Members
import ApiOutline.Tree.Basic

/-!
# The shape of the path tree

Which segments a path tree has is decided by its templates alone: those of the
templates that yield an operation, and their ancestors. The merge puts a node
at exactly the former, the bridges are the ancestors that the merge left out,
and sorting adds and loses none, so no two nodes meet. A node is a bridge when
no template yields an operation for it, which is when it holds none.

Since the segments depend on the templates in so simple a way, a document that
has more of them has all the nodes of one that has fewer.
-/

namespace ApiOutline.Tree

variable {c : Conventions} {document : Value} {nodes : List Node}

/-- The members of `paths` in a document, and none where there is no such mapping. -/
def pathsIn (document : Value) : Members :=
  match document with
  | .map _ ms =>
      match Members.find ms "paths" with
      | .map _ paths => paths
      | _ => []
  | _ => []

theorem pathsOf_ok {v : Value} {ms : Members} (ht : v.isTruthy = true) (h : pathsOf v = .ok ms) :
    ∃ cell, v = .map cell ms := by
  unfold pathsOf at h
  split at h
  · cases h
    exact ⟨_, rfl⟩
  · cases ht
  · cases ht
  · simp [Value.isTruthy] at ht
  · cases ht
  · cases h

theorem pathsIn_eq (document : Value) :
    pathsIn document = (Members.find document.membersOrNil "paths").membersOrNil := by
  cases document with
  | map cell ms =>
      show (match Members.find ms "paths" with | .map _ paths => paths | _ => []) = _
      rw [Value.membersOrNil]
      cases Members.find ms "paths" <;> rfl
  | _ => rfl

theorem merge_nil (c : Conventions) : (merge c []).result = .ok [] := by
  simp [merge, ordered, addMembers]

/-- The nodes of a document are those that its paths are merged into. -/
theorem nodesOf_ok {merged : List Node} (h : (nodesOf c document).result = .ok merged) :
    (merge c (pathsIn document)).result = .ok merged := by
  obtain ⟨ms, hms, hpaths⟩ := Logged.result_bind_eq_ok.1 h
  obtain ⟨cell, rfl⟩ := Value.members_eq_ok hms
  cases hms
  rw [pathsIn_eq, Value.membersOrNil]
  simp only [] at hpaths
  split at hpaths
  · next ht =>
      obtain ⟨paths, hof, hmerge⟩ := Logged.result_bind_eq_ok.1 hpaths
      obtain ⟨cell', hmap⟩ := pathsOf_ok ht hof
      rw [hmap]
      exact hmerge
  · next ht =>
      cases hpaths
      rw [Value.membersOrNil_of_falsy (Bool.eq_false_iff.2 ht)]
      exact merge_nil c

/-- The path tree of a document consists of its merged nodes and their bridges, sorted. -/
theorem ofDocument_ok (h : (ofDocument c document).result = .ok nodes) :
    ∃ merged, (nodesOf c document).result = .ok merged ∧
      nodes = sort (merged ++ bridges c merged) := by
  obtain ⟨merged, hmerged, hsort⟩ := Logged.result_bind_eq_ok.1 h
  cases hsort
  exact ⟨merged, hmerged, rfl⟩

theorem isSorting_sort (nodes : List Node) :
    IsSorting (fun n => n.path.length) nodes (sort nodes) :=
  isSorting_mergeSort _ nodes

theorem sort_perm (nodes : List Node) : (sort nodes).Perm nodes :=
  (isSorting_sort nodes).perm

/-- A path tree has the segments of the templates that yield an operation, and their proper
prefixes that are not empty. -/
theorem exists_node_iff (h : (ofDocument c document).result = .ok nodes) (s : List String) :
    (∃ n ∈ nodes, n.segments = s) ↔
      Yields c (pathsIn document) s ∨
        s ≠ [] ∧ ∃ t, Yields c (pathsIn document) t ∧ s <+: t ∧ s ≠ t := by
  obtain ⟨merged, hmerged, rfl⟩ := ofDocument_ok h
  have hreal := exists_merged_iff (nodesOf_ok hmerged)
  simp only [(sort_perm _).mem_iff, List.mem_append, or_and_right, exists_or]
  rw [exists_bridge_iff, hreal s]
  constructor
  · rintro (hs | ⟨⟨n, hn, hne, hpre, hneq⟩, -⟩)
    · exact Or.inl hs
    · exact Or.inr ⟨hne, n.segments, (hreal _).1 ⟨n, hn, rfl⟩, hpre, hneq⟩
  · rintro (hs | ⟨hne, t, ht, hpre, hneq⟩)
    · exact Or.inl hs
    · by_cases hs : Yields c (pathsIn document) s
      · exact Or.inl hs
      · obtain ⟨n, hn, rfl⟩ := (hreal t).2 ht
        exact Or.inr ⟨⟨n, hn, hne, hpre, hneq⟩, hs⟩

/-- A node of a path tree is a merged one or a bridge where no template yields an operation. -/
theorem node_cases (h : (ofDocument c document).result = .ok nodes) {n : Node} (hn : n ∈ nodes) :
    (n.operations ≠ [] ∧ n.isBridge = false ∧ Yields c (pathsIn document) n.segments) ∨
      (n.operations = [] ∧ n.isBridge = true ∧ ¬ Yields c (pathsIn document) n.segments) := by
  obtain ⟨merged, hmerged, rfl⟩ := ofDocument_ok h
  have hmerge := nodesOf_ok hmerged
  have hreal := exists_merged_iff hmerge
  have htable := isTable_merge hmerge
  rcases List.mem_append.1 ((sort_perm _).mem_iff.1 hn) with hmem | hbridge
  · refine Or.inl ⟨htable.full n hmem, ?_, (hreal _).1 ⟨n, hmem, rfl⟩⟩
    rw [Node.isBridge, Option.isNone_eq_false_iff]
    exact htable.real n hmem
  · obtain ⟨hops, hnone⟩ := bridge_is_empty hbridge
    refine Or.inr ⟨hops, ?_, ?_⟩
    · rw [Node.isBridge, hnone]
      rfl
    · rw [← hreal]
      exact (exists_bridge_iff.1 ⟨n, hbridge, rfl⟩).2

/-- A path tree has a node for each prefix of the segments of a node. -/
theorem exists_node_of_prefix (h : (ofDocument c document).result = .ok nodes) {n : Node}
    (hn : n ∈ nodes) {p : List String} (hne : p ≠ []) (hpre : p <+: n.segments) :
    ∃ m ∈ nodes, m.segments = p := by
  rw [exists_node_iff h]
  rcases (exists_node_iff h n.segments).1 ⟨n, hn, rfl⟩ with hyields | ⟨-, t, ht, hn, hneq⟩
  · by_cases heq : p = n.segments
    · exact Or.inl (heq ▸ hyields)
    · exact Or.inr ⟨hne, n.segments, hyields, hpre, heq⟩
  · refine Or.inr ⟨hne, t, ht, hpre.trans hn, fun heq => hneq ?_⟩
    -- A prefix of a prefix is the whole only if both are.
    exact hn.eq_of_length_le (heq ▸ hpre.length_le)

theorem nodup_segments (h : (ofDocument c document).result = .ok nodes) :
    (nodes.map Node.segments).Nodup := by
  obtain ⟨merged, hmerged, rfl⟩ := ofDocument_ok h
  have hkeyed : Keyed merged := (isTable_merge (nodesOf_ok hmerged)).keyed
  exact ((sort_perm _).map _).nodup_iff.2 (keyed_append_bridges hkeyed)

/-- A path tree has one node for the segments of each template that yields an operation and for
each of their proper prefixes that is not empty, and no other node. More templates mean no fewer
nodes. The nodes without operations are the bridges, which stand where no template yields any. -/
theorem path_tree_shape {c : Conventions} {document : Value} {nodes : List Node}
    (h : (ofDocument c document).result = .ok nodes) :
    IsReadable c (pathsIn document) ∧
    (nodes.map Node.segments).Nodup ∧
    (∀ s, (∃ n ∈ nodes, n.segments = s) ↔
      Yields c (pathsIn document) s ∨
        s ≠ [] ∧ ∃ t, Yields c (pathsIn document) t ∧ s <+: t ∧ s ≠ t) ∧
    (∀ n ∈ nodes, ∀ p, p ≠ [] → p <+: n.segments → ∃ m ∈ nodes, m.segments = p) ∧
    (∀ document' nodes', pathsIn document ⊆ pathsIn document' →
      (ofDocument c document').result = .ok nodes' →
      ∀ n ∈ nodes, ∃ n' ∈ nodes', n'.segments = n.segments) ∧
    ∀ n ∈ nodes, (n.operations = [] ↔ n.isBridge = true) ∧
      (n.isBridge = true ↔ ¬ Yields c (pathsIn document) n.segments) := by
  have hread : IsReadable c (pathsIn document) := by
    obtain ⟨merged, hmerged, -⟩ := ofDocument_ok h
    exact (merge_ok (nodesOf_ok hmerged)).1
  refine ⟨hread, nodup_segments h, exists_node_iff h, ?_, ?_, ?_⟩
  · intro n hn p hne hpre
    exact exists_node_of_prefix h hn hne hpre
  · intro document' nodes' hsub h' n hn
    rw [exists_node_iff h']
    rcases (exists_node_iff h n.segments).1 ⟨n, hn, rfl⟩ with hyields | ⟨hne, t, ht, hpre, hneq⟩
    · exact Or.inl (hyields.mono hsub)
    · exact Or.inr ⟨hne, t, ht.mono hsub, hpre, hneq⟩
  · intro n hn
    rcases node_cases h hn with ⟨hops, hbridge, hyields⟩ | ⟨hops, hbridge, hyields⟩
    · simp only [hops, hbridge, hyields, Bool.false_eq_true, not_true_eq_false, iff_self, and_self]
    · simp only [hops, hbridge, hyields, not_false_eq_true, iff_self, and_self]

/-! ## A room

One template of two segments, and so a node and a bridge. -/

def roomPaths : Members :=
  [(.str "/r/a", .ofMembers [(.str "get", shelfDefinition "list")])]

def roomDocument : Value := .ofMembers [(.str "paths", .ofMembers roomPaths)]

def roomNode : Node where
  segments := ["r", "a"]
  parameter := none
  defaultParameter := none
  operations := [shelfOperation "/r/a" "get" "get" "list"]
  endpoint := some "/r/a"

def roomBridge : Node where
  segments := ["r"]
  parameter := none
  defaultParameter := none
  operations := []
  endpoint := none

theorem result_nodesOf_roomDocument :
    (nodesOf shelfConventions roomDocument).result = .ok [roomNode] := by
  have hordered : ordered roomPaths = roomPaths := List.mergeSort_singleton _
  have hmerge : merge shelfConventions roomPaths = addMembers shelfConventions roomPaths [] := by
    rw [merge, if_pos (by decide +kernel), hordered]
  have hnodes : nodesOf shelfConventions roomDocument = merge shelfConventions roomPaths := rfl
  rw [hnodes, hmerge]
  rfl

theorem bridges_roomNode : bridges shelfConventions [roomNode] = [roomBridge] := rfl

theorem sort_room : sort [roomNode, roomBridge] = [roomBridge, roomNode] := by
  have hlong : ¬ roomNode.path.length ≤ roomBridge.path.length := by decide +kernel
  simp [sort, List.mergeSort, List.MergeSort.Internal.splitInTwo, hlong]

theorem result_ofDocument_roomDocument :
    (ofDocument shelfConventions roomDocument).result = .ok [roomBridge, roomNode] := by
  have hsort :
      sort ([roomNode] ++ bridges shelfConventions [roomNode]) = [roomBridge, roomNode] := by
    rw [bridges_roomNode]
    exact sort_room
  rw [ofDocument, Logged.result_bind, result_nodesOf_roomDocument]
  exact congrArg Except.ok hsort

theorem path_tree_shape_of_room :
    (ofDocument shelfConventions roomDocument).result = .ok [roomBridge, roomNode] ∧
    Yields shelfConventions (pathsIn roomDocument) ["r", "a"] ∧
    ¬ Yields shelfConventions (pathsIn roomDocument) ["r"] := by
  obtain ⟨-, -, -, -, -, hbridge⟩ := path_tree_shape result_ofDocument_roomDocument
  obtain ⟨-, hroom⟩ := hbridge roomBridge (by simp)
  obtain ⟨-, hnode⟩ := hbridge roomNode (by simp)
  refine ⟨result_ofDocument_roomDocument, ?_, hroom.1 rfl⟩
  exact Classical.not_not.1 fun hyields => absurd (hnode.2 hyields) (by decide)

end ApiOutline.Tree
