import ApiOutline.Proofs.Tree.Shape

/-!
# Ancestors come first

A path tree is sorted by the lengths of its paths, and a length says nothing
about ancestors. That they come first all the same is because no segment is
empty: the path of an ancestor is followed by a slash and more in the path of
a descendant, or is itself empty while the other one is not, and so it is the
shorter one either way (`length_intercalate_lt`).
-/

namespace ApiOutline

/-! ## Segments are not empty -/

theorem Template.ne_empty_of_mem_segments {t s : String} (h : s ∈ Template.segments t) :
    s ≠ "" := by
  obtain ⟨part, hpart, rfl⟩ := List.mem_map.1 h
  have hfull : part ∈ Template.fullParts t := (List.mem_filter.1 hpart).1
  have hne := (List.mem_filter.1 hfull).2
  intro hempty
  rw [String.ofList_eq_empty_iff.1 hempty] at hne
  cases hne

namespace Tree

variable {c : Conventions} {document : Value} {nodes : List Node}

theorem Yields.ne_empty {paths : Members} {s : List String} (h : Yields c paths s) :
    ∀ x ∈ s, x ≠ "" := by
  obtain ⟨v, -, rfl, -⟩ := h
  intro x hx
  exact Template.ne_empty_of_mem_segments hx

/-- The segments of a node are those of a template or the first of them. -/
theorem ne_empty_of_mem_segments (h : (ofDocument c document).result = .ok nodes) {n : Node}
    (hn : n ∈ nodes) : ∀ x ∈ n.segments, x ≠ "" := by
  rcases (exists_node_iff h n.segments).1 ⟨n, hn, rfl⟩ with hyields | ⟨-, t, ht, hpre, -⟩
  · exact hyields.ne_empty
  · intro x hx
    exact ht.ne_empty x (hpre.subset hx)

/-! ## A prefix has a shorter path -/

theorem length_intercalate_pos {s : List String} (hne : s ≠ []) (h : ∀ x ∈ s, x ≠ "") :
    0 < ("/".intercalate s).length := by
  obtain ⟨x, rest, rfl⟩ := List.exists_cons_of_ne_nil hne
  have hx : x.length ≠ 0 := fun hzero => h x List.mem_cons_self (String.length_eq_zero_iff.1 hzero)
  cases rest with
  | nil =>
      rw [String.intercalate_singleton]
      omega
  | cons y rest =>
      rw [String.intercalate_cons_cons, String.length_append, String.length_append]
      omega

theorem length_intercalate_lt {p s : List String} (h : ∀ x ∈ s, x ≠ "") (hpre : p <+: s)
    (hne : p ≠ s) : ("/".intercalate p).length < ("/".intercalate s).length := by
  obtain ⟨rest, rfl⟩ := hpre
  have hrest : rest ≠ [] := by
    intro hnil
    rw [hnil, List.append_nil] at hne
    exact hne rfl
  by_cases hp : p = []
  · subst hp
    rw [List.nil_append] at h ⊢
    exact length_intercalate_pos hrest h
  · have hslash : "/".length = 1 := rfl
    rw [String.intercalate_append_of_ne_nil hp hrest, String.length_append, String.length_append]
    omega

/-! ## The order -/

/-- A node stands before those whose segments continue its own. -/
theorem lt_of_prefix (h : (ofDocument c document).result = .ok nodes) {i j : Nat}
    {hi : i < nodes.length} {hj : j < nodes.length} (hpre : nodes[i].segments <+: nodes[j].segments)
    (hne : nodes[i].segments ≠ nodes[j].segments) : i < j := by
  have hfull := ne_empty_of_mem_segments h (List.getElem_mem hj)
  obtain ⟨merged, -, hsort⟩ := ofDocument_ok h
  have hsorting := isSorting_sort (merged ++ bridges c merged)
  rw [← hsort] at hsorting
  exact hsorting.lt_of_key_lt (length_intercalate_lt hfull hpre hne)

/-- A path tree consists of the merged nodes and their bridges, sorted by the lengths of their
paths. Each node stands behind all those whose segments are a proper prefix of its own, and for
every such prefix that is not empty there is one. -/
theorem path_tree_order {c : Conventions} {document : Value} {nodes : List Node}
    (h : (ofDocument c document).result = .ok nodes) :
    ∃ merged, (nodesOf c document).result = .ok merged ∧
      IsSorting (fun n => n.path.length) (merged ++ bridges c merged) nodes ∧
      (∀ i j (hi : i < nodes.length) (hj : j < nodes.length),
        nodes[i].segments <+: nodes[j].segments → nodes[i].segments ≠ nodes[j].segments → i < j) ∧
      ∀ j (hj : j < nodes.length) p, p ≠ [] → p <+: nodes[j].segments → p ≠ nodes[j].segments →
        ∃ i, ∃ hi : i < j, nodes[i].segments = p := by
  obtain ⟨merged, hmerged, hsort⟩ := ofDocument_ok h
  refine ⟨merged, hmerged, ?_, fun i j hi hj => lt_of_prefix h, ?_⟩
  · rw [hsort]
    exact isSorting_sort _
  · intro j hj p hnil hpre hne
    obtain ⟨n, hn, rfl⟩ := exists_node_of_prefix h (List.getElem_mem hj) hnil hpre
    obtain ⟨i, hi, rfl⟩ := List.getElem_of_mem hn
    exact ⟨i, lt_of_prefix h hpre hne, rfl⟩

theorem path_tree_order_of_room :
    (ofDocument shelfConventions roomDocument).result = .ok [roomBridge, roomNode] ∧
    IsSorting (fun n => n.path.length) [roomNode, roomBridge] [roomBridge, roomNode] := by
  obtain ⟨merged, hmerged, hsorting, -⟩ := path_tree_order result_ofDocument_roomDocument
  rw [result_nodesOf_roomDocument] at hmerged
  cases hmerged
  exact ⟨result_ofDocument_roomDocument, hsorting⟩

end Tree

end ApiOutline
