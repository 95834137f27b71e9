import ApiOutline.Proofs.Tree.Conservation

/-!
# When a merge succeeds

Nothing that the merge has done can make a later step of it fail: a template
is normalised and a definition is read without a look at the nodes. So a merge
succeeds exactly if its keys have lengths and each path item can be read by
itself (`merge_isOk_iff`), and neither the order of the members nor the
presence of others has a say in it.
-/

namespace ApiOutline.Tree

variable {c : Conventions} {v : Visit} {nodes : List Node} {members paths : Members}

theorem gather_store_isOk (h : v.IsReadable c) (path : String) (appending : Bool)
    (ops : List Operation) (table : List Node) (node : Node) :
    ∃ nodes', (gather c v.endpoint v.item path appending c.methods ops >>= fun ops' =>
      pure (store table node ops')).result = .ok nodes' := by
  obtain ⟨ops', hops⟩ := gather_isOk h path appending ops
  exact ⟨store table node ops', Logged.result_bind_eq_ok.2 ⟨ops', hops, rfl⟩⟩

theorem addItem_isOk (h : v.IsReadable c) (nodes : List Node) :
    ∃ nodes', (addItem c v.endpoint v.item nodes).result = .ok nodes' := by
  unfold addItem
  simp only []
  split
  · exact gather_store_isOk h _ _ _ _ _
  · split
    · exact gather_store_isOk h _ _ _ _ _
    · exact gather_store_isOk h _ _ _ _ _

theorem addMember_isOk {m : Value × Value}
    (h : m.2.isMap = true → ∃ v, Visit.ofMember? c m = some v ∧ v.IsReadable c)
    (nodes : List Node) : ∃ nodes', (addMember c m.1 m.2 nodes).result = .ok nodes' := by
  obtain ⟨template, item⟩ := m
  cases item with
  | map cell ms =>
      obtain ⟨v, hv, hread⟩ := h rfl
      obtain ⟨cell', hm, he⟩ := Visit.ofMember?_some hv
      cases hm
      obtain ⟨nodes', hnodes⟩ := addItem_isOk hread nodes
      refine ⟨nodes', ?_⟩
      rw [addMember, Logged.result_bind_eq_ok]
      exact ⟨(), rfl, Logged.result_bind_eq_ok.2 ⟨v.endpoint, he, hnodes⟩⟩
  | _ => exact ⟨nodes, rfl⟩

theorem addMembers_isOk (h : IsReadable c members) (nodes : List Node) :
    ∃ nodes', (addMembers c members nodes).result = .ok nodes' := by
  induction members generalizing nodes with
  | nil => exact ⟨nodes, rfl⟩
  | cons m rest ih =>
      obtain ⟨hm, hrest⟩ := List.forall_mem_cons.1 h
      obtain ⟨table, htable⟩ := addMember_isOk hm nodes
      obtain ⟨nodes', hnodes⟩ := ih hrest table
      exact ⟨nodes', Logged.result_bind_eq_ok.2 ⟨table, htable, hnodes⟩⟩

/-- Whether all keys of some members have a length. -/
def HasLengths (members : Members) : Prop :=
  ∀ m ∈ members, (templateLength m.1).isSome = true

/-- A merge succeeds if all keys have a length and each path item can be read. -/
theorem merge_isOk_iff :
    (∃ nodes, (merge c paths).result = .ok nodes) ↔ HasLengths paths ∧ IsReadable c paths := by
  constructor
  · rintro ⟨nodes, h⟩
    refine ⟨?_, (merge_ok h).1⟩
    unfold merge at h
    split at h
    · next hlengths => exact List.all_eq_true.1 hlengths
    · cases h
  · rintro ⟨hlengths, hread⟩
    have hordered : IsReadable c (ordered paths) := fun m hm =>
      hread m ((ordered_perm paths).mem_iff.1 hm)
    obtain ⟨nodes, hnodes⟩ := addMembers_isOk hordered []
    refine ⟨nodes, ?_⟩
    rw [merge, if_pos (List.all_eq_true.2 hlengths)]
    exact hnodes

/-- A merge that succeeds also succeeds for some of its members, in any order. -/
theorem merge_isOk_of_subset {paths' : Members} (hsub : paths' ⊆ paths)
    (h : (merge c paths).result = .ok nodes) : ∃ nodes', (merge c paths').result = .ok nodes' := by
  obtain ⟨hlengths, hread⟩ := merge_isOk_iff.1 ⟨nodes, h⟩
  exact merge_isOk_iff.2 ⟨fun m hm => hlengths m (hsub hm), fun m hm => hread m (hsub hm)⟩

end ApiOutline.Tree
