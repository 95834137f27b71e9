import ApiOutline.Json.Reader
import ApiOutline.Proofs.Value.Plain

/-!
# What is read of JSON

A value that is read of JSON is plain if its numbers are finite: the grammar
has words for numbers that are not. The induction is on the budget of the
reader, over the three functions at once, and only the values that stay are
asked to be finite. A member that is written twice counts once.
-/

namespace ApiOutline.Json

open Value (IsPlain)

variable {v : Value} {cs rest : List Char} {room : Room} {fuel : Nat}

/-- Whether a value is plain if it is finite. -/
def PlainIfFinite (v : Value) : Prop := v.isFinite = true → v.IsPlain

theorem plainIfFinite_unsigned {negative : Bool}
    (h : unsigned negative cs = some (.ok (v, rest))) : PlainIfFinite v := by
  obtain ⟨⟨whole, afterWhole⟩, _, h⟩ := Option.map_eq_some_iff.1 h
  intro hfinite
  simp only [] at h
  split at h
  · split at h
    · cases h
    · cases h
      exact .int _
  · cases h
    exact .float hfinite
  · cases h
    exact .float hfinite
  · cases h
    exact .float hfinite

theorem plainIfFinite_of_mem_words {w : List Char × Value} (h : w ∈ words) : PlainIfFinite w.2 := by
  intro hfinite
  simp only [words, List.mem_cons, List.not_mem_nil, or_false] at h
  rcases h with rfl | rfl | rfl | rfl | rfl | rfl
  · exact .null
  · exact .bool true
  · exact .bool false
  · exact .float hfinite
  · exact .float hfinite
  · exact .float hfinite

theorem plainIfFinite_scalar (h : scalar cs = .ok (v, rest)) : PlainIfFinite v := by
  unfold scalar at h
  split at h
  · next w v' hfound =>
      cases h
      exact plainIfFinite_of_mem_words (List.mem_of_find?_eq_some hfound)
  · split at h
    · next answer hanswer =>
        subst h
        split at hanswer
        · exact plainIfFinite_unsigned hanswer
        · exact plainIfFinite_unsigned hanswer
    · cases h

/-- Of members that are written down one after the other the last ones stay. -/
theorem plainIfFinite_ofList {ms : Members}
    (h : ∀ m ∈ ms, m.1.isText = true ∧ PlainIfFinite m.2) :
    PlainIfFinite (.ofMembers (Members.ofList ms)) := by
  intro hfinite
  have hkeys : ∀ m ∈ ms, m.1.isText = true := fun m hm => (h m hm).1
  refine .map (Members.named_nil.overlay hkeys) fun m hm => ?_
  rcases Members.named_nil.mem_overlay hkeys hm with hnone | hmem
  · cases hnone
  · exact (h m hmem).2 (Value.haveFinite_iff.1 hfinite m hm)

/-- What one more step of the budget reads is plain if what is within was read so. -/
theorem plainIfFinite_value
    (hmembers : ∀ room cs ms rest, members room fuel cs = .ok (ms, rest) →
      ∀ m ∈ ms, m.1.isText = true ∧ PlainIfFinite m.2)
    (helements : ∀ room cs vs rest, elements room fuel cs = .ok (vs, rest) →
      ∀ v ∈ vs, PlainIfFinite v)
    (h : value room (fuel + 1) cs = .ok (v, rest)) : PlainIfFinite v := by
  unfold value at h
  split at h
  · next hzero => cases hzero
  · split at h
    · cases h
      exact fun _ => .str _
    · cases h
  · next hfuel =>
      cases hfuel
      split at h
      · cases h
      split at h
      · cases h
        exact fun _ => Value.isPlain_nil
      · split at h
        · next ms rest' hread =>
            cases h
            exact plainIfFinite_ofList (hmembers _ _ _ _ hread)
        · cases h
  · next hfuel =>
      cases hfuel
      split at h
      · cases h
      split at h
      · cases h
        exact fun _ => .list (by simp)
      · split at h
        · next vs rest' hread =>
            cases h
            exact fun hfinite => .list fun v hv =>
              helements _ _ _ _ hread v hv (Value.areFinite_iff.1 hfinite v hv)
        · cases h
  · exact plainIfFinite_scalar h

theorem plainIfFinite_members {ms : Members}
    (hvalue : ∀ room cs v rest, value room fuel cs = .ok (v, rest) → PlainIfFinite v)
    (hmembers : ∀ room cs ms rest, members room fuel cs = .ok (ms, rest) →
      ∀ m ∈ ms, m.1.isText = true ∧ PlainIfFinite m.2)
    (h : members room (fuel + 1) cs = .ok (ms, rest)) :
    ∀ m ∈ ms, m.1.isText = true ∧ PlainIfFinite m.2 := by
  unfold members at h
  split at h
  · cases h
  · next hfuel =>
      cases hfuel
      split at h
      · cases h
      · split at h
        · split at h
          · cases h
          · next v afterValue hread =>
              have hv := hvalue _ _ _ _ hread
              split at h
              · cases h
                intro m hm
                cases List.mem_singleton.1 hm
                exact ⟨rfl, hv⟩
              · split at h
                · next ms' left hrest =>
                    cases h
                    exact List.forall_mem_cons.2 ⟨⟨rfl, hv⟩, hmembers _ _ _ _ hrest⟩
                · cases h
              · cases h
        · cases h
  · cases h

theorem plainIfFinite_elements {vs : List Value}
    (hvalue : ∀ room cs v rest, value room fuel cs = .ok (v, rest) → PlainIfFinite v)
    (helements : ∀ room cs vs rest, elements room fuel cs = .ok (vs, rest) →
      ∀ v ∈ vs, PlainIfFinite v)
    (h : elements room (fuel + 1) cs = .ok (vs, rest)) : ∀ v ∈ vs, PlainIfFinite v := by
  unfold elements at h
  split at h
  · cases h
  · next v afterValue hread =>
      have hv := hvalue _ _ _ _ hread
      split at h
      · cases h
        exact List.forall_mem_singleton.2 hv
      · split at h
        · next vs' left hrest =>
            cases h
            exact List.forall_mem_cons.2 ⟨hv, helements _ _ _ _ hrest⟩
        · cases h
      · cases h

/-- Whatever the budget, what is read is plain if its numbers are finite. -/
theorem plainIfFinite_read (fuel : Nat) :
    (∀ room cs v rest, value room fuel cs = .ok (v, rest) → PlainIfFinite v) ∧
    (∀ room cs ms rest, members room fuel cs = .ok (ms, rest) →
      ∀ m ∈ ms, m.1.isText = true ∧ PlainIfFinite m.2) ∧
    ∀ room cs vs rest, elements room fuel cs = .ok (vs, rest) → ∀ v ∈ vs, PlainIfFinite v := by
  induction fuel with
  | zero =>
      refine ⟨fun room cs v rest h => ?_, fun room cs ms rest h => ?_, fun room cs vs rest h => ?_⟩
      · cases h
      · cases h
      · cases h
  | succ fuel ih =>
      obtain ⟨hvalue, hmembers, helements⟩ := ih
      exact ⟨fun _ _ _ _ => plainIfFinite_value hmembers helements,
        fun _ _ _ _ => plainIfFinite_members hvalue hmembers,
        fun _ _ _ _ => plainIfFinite_elements hvalue helements⟩

/-- A value that is read of a text of JSON is plain if its numbers are finite. -/
theorem isPlain_of_parse {text : String} (h : parse text = .ok v) (hfinite : v.isFinite = true) :
    v.IsPlain := by
  unfold parse parseWithin at h
  simp only [] at h
  split at h
  · cases h
  · split at h
    · cases h
    · cases h
    · cases h
    · next v' rest hread =>
        split at h
        · cases h
          exact (plainIfFinite_read _).1 _ _ _ _ hread hfinite
        · cases h

end ApiOutline.Json
