import Mathlib.Data.List.Basic

/-!
# Sorting by a number

The templates of a document are visited from short to long, and the nodes that
come of them stand from short paths to long ones. Both orders are made the
same way: by a number, where what has one number in common keeps its order.
-/

namespace ApiOutline

/-- A list and what comes of sorting it by a number. -/
structure IsSorting {α : Type} (key : α → Nat) (before after : List α) : Prop where
  perm : after.Perm before
  ascending : after.Pairwise fun a b => key a ≤ key b
  stable : ∀ k, (after.filter fun a => key a == k) = before.filter fun a => key a == k

variable {α : Type} {key : α → Nat}

theorem key_le_trans (key : α → Nat) (a b c : α) (hab : decide (key a ≤ key b) = true)
    (hbc : decide (key b ≤ key c) = true) : decide (key a ≤ key c) = true :=
  decide_eq_true (Nat.le_trans (of_decide_eq_true hab) (of_decide_eq_true hbc))

theorem key_le_total (key : α → Nat) (a b : α) :
    (decide (key a ≤ key b) || decide (key b ≤ key a)) = true := by
  rw [Bool.or_eq_true, decide_eq_true_iff, decide_eq_true_iff]
  exact Nat.le_total _ _

/-- What has one number in common is in order before it is sorted, so sorting leaves it as it
stands. -/
theorem filter_mergeSort_key (key : α → Nat) (xs : List α) (k : Nat) :
    ((xs.mergeSort fun a b => decide (key a ≤ key b)).filter fun a => key a == k) =
      xs.filter fun a => key a == k := by
  have hsorted : (xs.filter fun a => key a == k).Pairwise fun a b => decide (key a ≤ key b) := by
    refine List.pairwise_of_forall_mem_list fun a ha b hb => ?_
    have hka : key a = k := beq_iff_eq.1 (List.mem_filter.1 ha).2
    have hkb : key b = k := beq_iff_eq.1 (List.mem_filter.1 hb).2
    rw [hka, hkb]
    exact decide_eq_true (Nat.le_refl k)
  have hsub := List.sublist_mergeSort (key_le_trans key) (key_le_total key) hsorted
    List.filter_sublist
  have hfilter := hsub.filter fun a => key a == k
  rw [List.filter_filter] at hfilter
  simp only [Bool.and_self] at hfilter
  refine (hfilter.eq_of_length ?_).symm
  exact ((List.mergeSort_perm xs _).filter _).length_eq.symm

theorem isSorting_mergeSort (key : α → Nat) (xs : List α) :
    IsSorting key xs (xs.mergeSort fun a b => decide (key a ≤ key b)) where
  perm := List.mergeSort_perm xs _
  ascending :=
    (List.pairwise_mergeSort (key_le_trans key) (key_le_total key) xs).imp of_decide_eq_true
  stable := filter_mergeSort_key key xs

theorem IsSorting.filter {before after : List α} (h : IsSorting key before after) (p : α → Bool) :
    IsSorting key (before.filter p) (after.filter p) where
  perm := h.perm.filter p
  ascending := h.ascending.sublist List.filter_sublist
  stable := by
    intro k
    rw [List.filter_comm, h.stable k, List.filter_comm]

theorem IsSorting.filterMap {β : Type} {key' : β → Nat} {f : α → Option β} {before after : List α}
    (h : IsSorting key before after) (hf : ∀ a b, f a = some b → key' b = key a) :
    IsSorting key' (before.filterMap f) (after.filterMap f) where
  perm := h.perm.filterMap f
  ascending := by
    refine h.ascending.filterMap f fun a a' hle b hb b' hb' => ?_
    rw [hf a b hb, hf a' b' hb']
    exact hle
  stable := by
    intro k
    have hcomm : ∀ xs : List α, ((xs.filterMap f).filter fun b => key' b == k) =
        (xs.filter fun a => key a == k).filterMap f := by
      intro xs
      rw [List.filter_filterMap, List.filterMap_filter]
      refine List.filterMap_congr fun a _ => ?_
      cases hfa : f a with
      | none => rw [Option.filter_none, ite_self]
      | some b => rw [Option.filter_some, hf a b hfa]
    rw [hcomm, hcomm, h.stable k]

/-- What stands at the head of one of two ascending lists is no greater than what stands in the
other one, if both have the same things for each number. -/
theorem key_head_le {x y : α} {xs ys : List α} (hx : (x :: xs).Pairwise fun a b => key a ≤ key b)
    (h : ∀ k, ((x :: xs).filter fun a => key a == k) = (y :: ys).filter fun a => key a == k) :
    key x ≤ key y := by
  have hy : y ∈ (y :: ys).filter fun a => key a == key y :=
    List.mem_filter.2 ⟨List.mem_cons_self, beq_self_eq_true _⟩
  rw [← h] at hy
  rcases List.mem_cons.1 (List.mem_filter.1 hy).1 with rfl | hmem
  · exact Nat.le_refl _
  · exact List.rel_of_pairwise_cons hx hmem

/-- Lists in ascending order are one if they have the same things for each number. -/
theorem eq_of_filter_key {xs ys : List α} (hx : xs.Pairwise fun a b => key a ≤ key b)
    (hy : ys.Pairwise fun a b => key a ≤ key b)
    (h : ∀ k, (xs.filter fun a => key a == k) = ys.filter fun a => key a == k) : xs = ys := by
  induction xs generalizing ys with
  | nil =>
      cases ys with
      | nil => rfl
      | cons y ys => simpa using h (key y)
  | cons x xs ih =>
      cases ys with
      | nil => simpa using h (key x)
      | cons y ys =>
          have hkey : key x = key y :=
            Nat.le_antisymm (key_head_le hx h) (key_head_le hy fun k => (h k).symm)
          -- Both heads are the first of what has their number.
          have hhead := h (key x)
          rw [List.filter_cons, if_pos (beq_self_eq_true _), List.filter_cons,
            if_pos (beq_iff_eq.2 hkey.symm)] at hhead
          obtain ⟨rfl, -⟩ := List.cons_eq_cons.1 hhead
          refine congrArg _ (ih (List.pairwise_cons.1 hx).2 (List.pairwise_cons.1 hy).2 fun k => ?_)
          have hk := h k
          rw [List.filter_cons, List.filter_cons] at hk
          split at hk
          · exact (List.cons_eq_cons.1 hk).2
          · exact hk

/-- A list is sorted in one way only. -/
theorem IsSorting.unique {before after after' : List α} (h : IsSorting key before after)
    (h' : IsSorting key before after') : after = after' :=
  eq_of_filter_key h.ascending h'.ascending fun k => (h.stable k).trans (h'.stable k).symm

theorem IsSorting.eq_of_ascending {before after : List α} (h : IsSorting key before after)
    (hb : before.Pairwise fun a b => key a ≤ key b) : after = before :=
  h.unique ⟨List.Perm.refl before, hb, fun _ => rfl⟩

/-- What has a smaller number stands before what has a greater one. -/
theorem IsSorting.lt_of_key_lt {before after : List α} (h : IsSorting key before after) {i j : Nat}
    {hi : i < after.length} {hj : j < after.length} (hlt : key after[i] < key after[j]) :
    i < j := by
  refine Nat.lt_of_not_le fun hji => ?_
  rcases Nat.eq_or_lt_of_le hji with rfl | hji
  · exact Nat.lt_irrefl _ hlt
  · have hle := List.pairwise_iff_getElem.1 h.ascending j i hj hi hji
    omega

end ApiOutline
