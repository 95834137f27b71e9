import ApiOutline.Proofs.Tree.Table
import ApiOutline.Tree.Bridge

/-!
# Where there are bridges

The bridges of some nodes stand at the proper prefixes of their segments that
are not empty and at which none of the nodes stands, once each. The prefixes
are looked at node by node, and each that is missing is known from then on
(`mem_missing`, `nodup_missing`).
-/

namespace ApiOutline.Tree

variable {c : Conventions} {nodes : List Node}

theorem mem_properPrefixes {p s : List String} :
    p ∈ properPrefixes s ↔ p ≠ [] ∧ p <+: s ∧ p ≠ s := by
  rw [properPrefixes, List.mem_map]
  constructor
  · rintro ⟨n, hn, rfl⟩
    rw [List.mem_range] at hn
    have hlen : (s.take (n + 1)).length = n + 1 := by
      rw [List.length_take]
      omega
    refine ⟨List.ne_nil_of_length_eq_add_one hlen, List.take_prefix _ _, fun heq => ?_⟩
    rw [heq] at hlen
    omega
  · rintro ⟨hne, hpre, hneq⟩
    have hpos : 0 < p.length := List.length_pos_iff.2 hne
    have hlt : p.length < s.length := by
      refine Nat.lt_of_le_of_ne hpre.length_le fun heq => hneq ?_
      exact hpre.eq_of_length heq
    refine ⟨p.length - 1, List.mem_range.2 (by omega), ?_⟩
    rw [Nat.sub_add_cancel hpos]
    exact (List.prefix_iff_eq_take.1 hpre).symm

/-! ## Missing prefixes -/

theorem missing_cons (known : List (List String)) (n : Node) (p : List String)
    (rest : List (Node × List String)) :
    missing known ((n, p) :: rest) =
      if p ∈ known then missing known rest else (n, p) :: missing (p :: known) rest := by
  rw [missing]
  simp only [List.contains_iff_mem]

/-- The prefixes that are missing are those looked at that were not known. -/
theorem mem_missing {known : List (List String)} {cs : List (Node × List String)}
    {p : List String} :
    p ∈ (missing known cs).map Prod.snd ↔ p ∈ cs.map Prod.snd ∧ p ∉ known := by
  induction cs generalizing known with
  | nil => simp [missing]
  | cons m rest ih =>
      obtain ⟨n, q⟩ := m
      rw [missing_cons, List.map_cons, List.mem_cons]
      split
      · next hq =>
          rw [ih]
          constructor
          · exact fun h => ⟨Or.inr h.1, h.2⟩
          · rintro ⟨rfl | hp, hk⟩
            · exact absurd hq hk
            · exact ⟨hp, hk⟩
      · next hq =>
          rw [List.map_cons, List.mem_cons, ih, List.mem_cons, not_or]
          constructor
          · rintro (rfl | ⟨hp, -, hk⟩)
            · exact ⟨Or.inl rfl, hq⟩
            · exact ⟨Or.inr hp, hk⟩
          · rintro ⟨rfl | hp, hk⟩
            · exact Or.inl rfl
            · by_cases heq : p = q
              · exact Or.inl heq
              · exact Or.inr ⟨hp, heq, hk⟩

theorem nodup_missing (known : List (List String)) (cs : List (Node × List String)) :
    ((missing known cs).map Prod.snd).Nodup := by
  induction cs generalizing known with
  | nil => exact List.nodup_nil
  | cons m rest ih =>
      obtain ⟨n, p⟩ := m
      rw [missing_cons]
      split
      · exact ih known
      · rw [List.map_cons, List.nodup_cons]
        refine ⟨fun hp => ?_, ih _⟩
        exact (mem_missing.1 hp).2 List.mem_cons_self

/-! ## Bridges -/

theorem map_segments_bridges :
    (bridges c nodes).map Node.segments =
      (missing (nodes.map Node.segments) (candidates nodes)).map Prod.snd := by
  rw [bridges, List.map_map]
  rfl

theorem mem_map_candidates {p : List String} :
    p ∈ (candidates nodes).map Prod.snd ↔
      ∃ n ∈ nodes, p ≠ [] ∧ p <+: n.segments ∧ p ≠ n.segments := by
  simp only [candidates, List.map_flatMap, List.map_map, List.mem_flatMap, List.mem_map,
    Function.comp_apply, exists_eq_right, mem_properPrefixes]

/-- There is a bridge at each proper prefix of a node that is not empty and has no node. -/
theorem exists_bridge_iff {p : List String} :
    (∃ b ∈ bridges c nodes, b.segments = p) ↔
      (∃ n ∈ nodes, p ≠ [] ∧ p <+: n.segments ∧ p ≠ n.segments) ∧
        ¬ ∃ n ∈ nodes, n.segments = p := by
  have hmem : (∃ b ∈ bridges c nodes, b.segments = p) ↔ p ∈ (bridges c nodes).map Node.segments :=
    List.mem_map.symm
  rw [hmem, map_segments_bridges, mem_missing, mem_map_candidates, List.mem_map]

/-- Nodes and their bridges are a table together. -/
theorem keyed_append_bridges (hk : Keyed nodes) : Keyed (nodes ++ bridges c nodes) := by
  unfold Keyed
  rw [List.map_append, List.nodup_append]
  refine ⟨hk, ?_, ?_⟩
  · rw [map_segments_bridges]
    exact nodup_missing _ _
  · rintro s hs t ht rfl
    rw [map_segments_bridges, mem_missing] at ht
    exact ht.2 hs

/-- A bridge holds no operation and has no endpoint. -/
theorem bridge_is_empty {b : Node} (h : b ∈ bridges c nodes) :
    b.operations = [] ∧ b.endpoint = none := by
  obtain ⟨m, -, rfl⟩ := List.mem_map.1 h
  exact ⟨rfl, rfl⟩

end ApiOutline.Tree
