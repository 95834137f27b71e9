import ApiOutline.Proofs.Template
import ApiOutline.Proofs.Tree.Bridges

/-!
# In which order bridges are found

The nodes share one list of known segments while their bridges are looked for,
so what a node finds depends on all nodes before it. Seen from a prefix it is
simple: the first node that needs it finds it, and a node finds its own ones
from short to long (`pairwise_missing`). All else about a bridge is decided by
that first node, and the parameter by the place in its endpoint where the prefix
ends.

Both are shown node by node. What the first node needs is known to the others,
and for them it is as if they had been alone, with those prefixes known from
the start (`missing_append`).
-/

namespace ApiOutline

/-- Whether a node needs an ancestor at some segments: they are a proper prefix of its own, and not
empty. -/
def Node.Needs (n : Node) (p : List String) : Prop := p ≠ [] ∧ p <+: n.segments ∧ p ≠ n.segments

namespace Tree

variable {c : Conventions} {n m : Node} {nodes rest : List Node} {p : List String} {i : Nat}

/-- Whether a node is the first one that needs an ancestor at some segments, and where it stands. -/
structure FirstNeed (nodes : List Node) (p : List String) (i : Nat) (n : Node) : Prop where
  node_eq : nodes[i]? = some n
  needs : n.Needs p
  first : ∀ j < i, ∀ m, nodes[j]? = some m → ¬ m.Needs p

theorem FirstNeed.unique {i' : Nat} {n' : Node} (h : FirstNeed nodes p i n)
    (h' : FirstNeed nodes p i' n') : i = i' ∧ n = n' := by
  obtain rfl : i = i' := by
    rcases Nat.lt_trichotomy i i' with hlt | heq | hgt
    · exact absurd h.needs (h'.first i hlt n h.node_eq)
    · exact heq
    · exact absurd h'.needs (h.first i' hgt n' h'.node_eq)
  exact ⟨rfl, Option.some.inj (h.node_eq.symm.trans h'.node_eq)⟩

theorem firstNeed_cons_self (h : n.Needs p) : FirstNeed (n :: rest) p 0 n :=
  ⟨rfl, h, fun _ hj => absurd hj (Nat.not_lt_zero _)⟩

theorem FirstNeed.cons (h : FirstNeed rest p i m) (hn : ¬ n.Needs p) :
    FirstNeed (n :: rest) p (i + 1) m where
  node_eq := h.node_eq
  needs := h.needs
  first := by
    intro j hj m' hm'
    cases j with
    | zero =>
        cases hm'
        exact hn
    | succ j => exact h.first j (Nat.lt_of_succ_lt_succ hj) m' hm'

/-! ## Node by node -/

theorem missing_sublist (known : List (List String)) (cs : List (Node × List String)) :
    (missing known cs).Sublist cs := by
  induction cs generalizing known with
  | nil => exact List.Sublist.refl _
  | cons m rest ih =>
      obtain ⟨n, p⟩ := m
      rw [missing_cons]
      split
      · exact (ih known).cons _
      · exact (ih _).cons_cons _

/-- What was looked at before is known to what is looked at later. -/
theorem missing_append (known : List (List String)) (cs cs' : List (Node × List String)) :
    ∃ known', (∀ p, p ∈ known' ↔ p ∈ known ∨ p ∈ cs.map Prod.snd) ∧
      missing known (cs ++ cs') = missing known cs ++ missing known' cs' := by
  induction cs generalizing known with
  | nil => exact ⟨known, by simp, rfl⟩
  | cons m rest ih =>
      obtain ⟨n, p⟩ := m
      rw [List.cons_append, missing_cons, missing_cons, List.map_cons]
      split
      · next hp =>
          obtain ⟨known', hmem, heq⟩ := ih known
          refine ⟨known', fun q => ?_, heq⟩
          rw [hmem, List.mem_cons]
          constructor
          · exact fun h => h.imp_right Or.inr
          · rintro (hq | rfl | hq)
            · exact Or.inl hq
            · exact Or.inl hp
            · exact Or.inr hq
      · obtain ⟨known', hmem, heq⟩ := ih (p :: known)
        refine ⟨known', fun q => ?_, by rw [heq, List.cons_append]⟩
        rw [hmem, List.mem_cons, List.mem_cons, or_assoc, or_left_comm]

/-- The prefixes of one node, as they are looked at. -/
def prefixesOf (n : Node) : List (Node × List String) :=
  (properPrefixes n.segments).map fun p => (n, p)

theorem candidates_cons (n : Node) (rest : List Node) :
    candidates (n :: rest) = prefixesOf n ++ candidates rest :=
  List.flatMap_cons

theorem mem_prefixesOf {m : Node × List String} :
    m ∈ prefixesOf n ↔ m.1 = n ∧ n.Needs m.2 := by
  rw [prefixesOf, List.mem_map]
  constructor
  · rintro ⟨p, hp, rfl⟩
    exact ⟨rfl, mem_properPrefixes.1 hp⟩
  · rintro ⟨hnode, hneeds⟩
    exact ⟨m.2, mem_properPrefixes.2 hneeds, Prod.ext hnode.symm rfl⟩

theorem mem_map_prefixesOf : p ∈ (prefixesOf n).map Prod.snd ↔ n.Needs p := by
  rw [List.mem_map]
  constructor
  · rintro ⟨m, hm, rfl⟩
    exact (mem_prefixesOf.1 hm).2
  · exact fun h => ⟨(n, p), mem_prefixesOf.2 ⟨rfl, h⟩, rfl⟩

theorem pairwise_prefixesOf (n : Node) :
    (prefixesOf n).Pairwise fun m m' => m.2.length < m'.2.length := by
  rw [prefixesOf, List.pairwise_map, properPrefixes, List.pairwise_map]
  refine List.pairwise_lt_range.imp_of_mem fun {j k} hj hk hlt => ?_
  rw [List.mem_range] at hj hk
  rw [List.length_take, List.length_take]
  omega

/-- The missing prefixes of several nodes are those of the first one and those that the others miss
where the first one's are known. -/
theorem missing_candidates_cons (known : List (List String)) (n : Node) (rest : List Node) :
    ∃ known', missing known (candidates (n :: rest)) =
        missing known (prefixesOf n) ++ missing known' (candidates rest) ∧
      (∀ m ∈ missing known (prefixesOf n), m.1 = n ∧ n.Needs m.2) ∧
      ∀ m ∈ missing known' (candidates rest), ¬ n.Needs m.2 := by
  obtain ⟨known', hmem, heq⟩ := missing_append known (prefixesOf n) (candidates rest)
  refine ⟨known', by rw [candidates_cons, heq], fun m hm => ?_, fun m hm hn => ?_⟩
  · exact mem_prefixesOf.1 ((missing_sublist known _).subset hm)
  · have hknown := (mem_missing.1 (List.mem_map_of_mem hm)).2
    rw [hmem, mem_map_prefixesOf] at hknown
    exact hknown (Or.inr hn)

/-- A missing prefix is found by the first node that needs it. -/
theorem exists_firstNeed {known : List (List String)} {m : Node × List String}
    (h : m ∈ missing known (candidates nodes)) : ∃ i, FirstNeed nodes m.2 i m.1 := by
  induction nodes generalizing known with
  | nil => cases h
  | cons n rest ih =>
      obtain ⟨known', heq, hown, hothers⟩ := missing_candidates_cons known n rest
      rw [heq] at h
      rcases List.mem_append.1 h with hfirst | hlater
      · obtain ⟨hnode, hneeds⟩ := hown m hfirst
        refine ⟨0, ?_⟩
        rw [hnode]
        exact firstNeed_cons_self hneeds
      · obtain ⟨i, hi⟩ := ih hlater
        exact ⟨i + 1, hi.cons (hothers m hlater)⟩

/-- Whether one prefix is found before another one: an earlier node needs it, or the same node does
and it is the shorter one. -/
def FoundBefore (nodes : List Node) (p q : List String) : Prop :=
  ∃ i j n m, FirstNeed nodes p i n ∧ FirstNeed nodes q j m ∧
    (i < j ∨ i = j ∧ p.length < q.length)

theorem FoundBefore.cons {q : List String} (h : FoundBefore rest p q) (hp : ¬ n.Needs p)
    (hq : ¬ n.Needs q) : FoundBefore (n :: rest) p q := by
  obtain ⟨i, j, n', m', hi, hj, hlt⟩ := h
  exact ⟨i + 1, j + 1, n', m', hi.cons hp, hj.cons hq, by omega⟩

/-- The missing prefixes stand in the order in which they are found. -/
theorem pairwise_missing (known : List (List String)) (nodes : List Node) :
    (missing known (candidates nodes)).Pairwise fun m m' => FoundBefore nodes m.2 m'.2 := by
  induction nodes generalizing known with
  | nil => exact List.Pairwise.nil
  | cons n rest ih =>
      obtain ⟨known', heq, hown, hothers⟩ := missing_candidates_cons known n rest
      rw [heq, List.pairwise_append]
      refine ⟨?_, ?_, fun m hm m' hm' => ?_⟩
      · refine ((pairwise_prefixesOf n).sublist (missing_sublist known _)).imp_of_mem
          fun {m m'} hm hm' hlt => ?_
        exact ⟨0, 0, n, n, firstNeed_cons_self (hown m hm).2, firstNeed_cons_self (hown m' hm').2,
          Or.inr ⟨rfl, hlt⟩⟩
      · exact (ih known').imp_of_mem fun {m m'} hm hm' hbefore =>
          hbefore.cons (hothers m hm) (hothers m' hm')
      · obtain ⟨j, hj⟩ := exists_firstNeed hm'
        exact ⟨0, j + 1, n, m'.1, firstNeed_cons_self (hown m hm).2, hj.cons (hothers m' hm'),
          Or.inl (Nat.zero_lt_succ j)⟩

/-! ## Bridges -/

/-- Nothing is missing among nodes and their bridges. -/
theorem bridges_append_bridges (c : Conventions) (nodes : List Node) :
    bridges c (nodes ++ bridges c nodes) = [] := by
  rw [List.eq_nil_iff_forall_not_mem]
  intro b hb
  obtain ⟨⟨n, hn, hne, hpre, hneq⟩, hnone⟩ := exists_bridge_iff.1 ⟨b, hb, rfl⟩
  refine hnone ?_
  -- Whatever a bridge needs, the node that needs the bridge needs as well.
  obtain ⟨m, hm, hpre, hneq⟩ :
      ∃ m ∈ nodes, b.segments <+: m.segments ∧ b.segments ≠ m.segments := by
    rcases List.mem_append.1 hn with hnode | hbridge
    · exact ⟨n, hnode, hpre, hneq⟩
    · obtain ⟨⟨m, hm, -, hbetween, -⟩, -⟩ := exists_bridge_iff.1 ⟨n, hbridge, rfl⟩
      refine ⟨m, hm, hpre.trans hbetween, fun heq => hneq ?_⟩
      exact hpre.eq_of_length_le (heq ▸ hbetween.length_le)
  by_cases hthere : ∃ k ∈ nodes, k.segments = b.segments
  · obtain ⟨k, hk, hsegments⟩ := hthere
    exact ⟨k, List.mem_append_left _ hk, hsegments⟩
  · obtain ⟨k, hk, hsegments⟩ := exists_bridge_iff (c := c).2 ⟨⟨m, hm, hne, hpre, hneq⟩, hthere⟩
    exact ⟨k, List.mem_append_right _ hk, hsegments⟩

/-- What the first node that needs a bridge says of it. -/
structure IsBridgeOf (c : Conventions) (n b : Node) : Prop where
  operations : b.operations = []
  endpoint : b.endpoint = none
  parameter : ∀ name, b.parameter = some name ↔
    Template.TokenFollows (Template.fullParts (n.endpoint.getD "")) b.segments.length name.toList
  default_of_some : ∀ name, b.parameter = some name → ∀ last, b.segments.getLast? = some last →
    b.defaultParameter = c.versionDefaults.lookup last
  default_of_none : b.parameter = none → b.defaultParameter = none

theorem isBridgeOf_bridgeFor (c : Conventions) (n : Node) (p : List String) :
    IsBridgeOf c n (bridgeFor c n p) where
  operations := rfl
  endpoint := rfl
  parameter _ := Template.parameterAfter_eq_some_iff
  default_of_some := by
    intro name hname last hlast
    have hparameter : Template.parameterAfter (n.endpoint.getD "") p = some name := hname
    have hlast : p.getLast? = some last := hlast
    simp only [bridgeFor, hparameter, hlast]
  default_of_none := by
    intro hnone
    have hparameter : Template.parameterAfter (n.endpoint.getD "") p = none := hnone
    simp only [bridgeFor, hparameter]

/-- Some nodes have one bridge at each proper prefix of their segments that is not empty and at
which none of them stands. The bridges stand in the order in which their prefixes are found, node by
node and from short to long, and the first node that needs a bridge decides what it is like. With
the bridges among the nodes, nothing is missing any more. -/
theorem bridges_are_missing_prefixes (c : Conventions) (nodes : List Node) :
    ((bridges c nodes).map Node.segments).Nodup ∧
    (∀ p, (∃ b ∈ bridges c nodes, b.segments = p) ↔
      (∃ n ∈ nodes, n.Needs p) ∧ ¬ ∃ n ∈ nodes, n.segments = p) ∧
    ((bridges c nodes).Pairwise fun b b' => FoundBefore nodes b.segments b'.segments) ∧
    (∀ b ∈ bridges c nodes, ∃ i n, FirstNeed nodes b.segments i n ∧ IsBridgeOf c n b) ∧
    bridges c (nodes ++ bridges c nodes) = [] := by
  refine ⟨?_, fun p => exists_bridge_iff, ?_, fun b hb => ?_, bridges_append_bridges c nodes⟩
  · rw [map_segments_bridges]
    exact nodup_missing _ _
  · rw [bridges, List.pairwise_map]
    exact pairwise_missing _ nodes
  · obtain ⟨m, hm, rfl⟩ := List.mem_map.1 hb
    obtain ⟨i, hi⟩ := exists_firstNeed hm
    exact ⟨i, m.1, hi, isBridgeOf_bridgeFor c m.1 m.2⟩

/-- Two nodes name the parameter of their common ancestor differently. -/
example :
    (bridges .default [⟨["a", "b"], none, none, [], some "/a/\x7bx\x7d/b"⟩,
      ⟨["a", "c"], none, none, [], some "/a/\x7by\x7d/c"⟩]).map Node.parameter = [some "x"] := by
  decide +kernel

end Tree

end ApiOutline
