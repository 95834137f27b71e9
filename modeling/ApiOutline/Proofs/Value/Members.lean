import ApiOutline.Value.Access

/-!
# Looking members up

What is found under a key is a member, and it has that key. Texts are keys of
their own: nothing else is the same key as a text. So what is written under
one text, or taken out under it, is not seen under another.
-/

namespace ApiOutline

variable {ms : Members} {k v : Value} {key other : String}

theorem Value.sameKey_str_iff : k.sameKey (.str key) = true ↔ k = .str key := by
  cases k <;> simp [Value.sameKey]

namespace Members

theorem mem_of_get? (h : get? ms k = some v) : ∃ k', k'.sameKey k = true ∧ (k', v) ∈ ms := by
  obtain ⟨m, hm, rfl⟩ := Option.map_eq_some_iff.1 h
  exact ⟨m.1, (List.find?_eq_some_iff_append.1 hm).1, List.mem_of_find?_eq_some hm⟩

theorem mem_of_find? (h : find? ms key = some v) : (.str key, v) ∈ ms := by
  obtain ⟨k, hk, hmem⟩ := mem_of_get? h
  rw [Value.sameKey_str_iff.1 hk] at hmem
  exact hmem

theorem find_of_find? (h : find? ms key = some v) : find ms key = v := by
  rw [find, h, Option.getD_some]

/-- What is found under a text is a member, unless nothing is found. -/
theorem mem_of_find (h : find ms key = v) (hv : v ≠ .null) : (.str key, v) ∈ ms := by
  unfold find at h
  cases hfind : find? ms key with
  | none => rw [hfind] at h; exact absurd h.symm hv
  | some w =>
      rw [hfind] at h
      cases h
      exact mem_of_find? hfind

theorem find?_cons (m : Value × Value) (rest : Members) (key : String) :
    find? (m :: rest) key = if m.1.sameKey (.str key) then some m.2 else find? rest key := by
  rw [find?, get?, List.find?_cons]
  cases h : m.1.sameKey (.str key)
  · rfl
  · rfl

theorem has_str_iff : has ms (.str key) = true ↔ ∃ v, find? ms key = some v := by
  induction ms with
  | nil => simp [has, find?, get?]
  | cons m rest ih =>
      rw [find?_cons]
      have hcons : has (m :: rest) (.str key) = (m.1.sameKey (.str key) || has rest (.str key)) :=
        List.any_cons
      rw [hcons, Bool.or_eq_true, ih]
      split
      · next h => simp [h]
      · next h => simp [h]

theorem find_eq_null (h : has ms (.str key) = false) : find ms key = .null := by
  unfold find
  cases hfind : find? ms key with
  | none => rfl
  | some v =>
      rw [has_str_iff.2 ⟨v, hfind⟩] at h
      cases h

theorem has_of_find_ne_null (h : find ms key ≠ .null) : has ms (.str key) = true := by
  cases hhas : has ms (.str key) with
  | true => rfl
  | false => exact absurd (find_eq_null hhas) h

/-! ## Writing and taking out -/

/-- A key that is there keeps its place, any other goes to the end. -/
theorem map_fst_put (ms : Members) (k v : Value) :
    (put ms k v).map Prod.fst = if has ms k then ms.map Prod.fst else ms.map Prod.fst ++ [k] := by
  induction ms with
  | nil => rfl
  | cons m rest ih =>
      have hcons : has (m :: rest) k = (m.1.sameKey k || has rest k) := List.any_cons
      rw [put, hcons]
      cases h : m.1.sameKey k with
      | true => rfl
      | false =>
          rw [if_neg Bool.false_ne_true, List.map_cons, ih, Bool.false_or]
          split
          · rfl
          · rfl

theorem find?_set_self (ms : Members) (key : String) (v : Value) :
    find? (set ms key v) key = some v := by
  induction ms with
  | nil => simp [set, put, find?_cons, Value.sameKey]
  | cons m rest ih =>
      rw [set, put]
      split
      · next h => rw [find?_cons, if_pos h]
      · next h => rw [find?_cons, if_neg h]; exact ih

theorem find?_set_of_ne (h : key ≠ other) (ms : Members) (v : Value) :
    find? (set ms key v) other = find? ms other := by
  have hne : ∀ {k : Value}, k.sameKey (.str key) = true → ¬ k.sameKey (.str other) = true := by
    intro k hk hother
    rw [Value.sameKey_str_iff.1 hk, Value.sameKey_str_iff] at hother
    exact h (Value.str.inj hother)
  induction ms with
  | nil => simp [set, put, find?_cons, Value.sameKey, h]
  | cons m rest ih =>
      rw [set, put]
      split
      · next hm => rw [find?_cons, find?_cons, if_neg (hne hm), if_neg (hne hm)]
      · rw [find?_cons, find?_cons]
        congr 1

theorem find?_erase_of_ne (h : key ≠ other) (ms : Members) :
    find? (erase ms key) other = find? ms other := by
  induction ms with
  | nil => rfl
  | cons m rest ih =>
      rw [erase, List.filter_cons]
      split
      · rw [find?_cons, find?_cons]
        congr 1
      · next hm =>
          -- What is taken out has another key.
          have hne : ¬ m.1.sameKey (.str other) = true := by
            intro hother
            rw [Value.sameKey_str_iff] at hother
            rw [hother] at hm
            simp [Value.isStr, Ne.symm h] at hm
          rw [find?_cons, if_neg hne]
          exact ih

theorem find?_erase_self (ms : Members) (key : String) : find? (erase ms key) key = none := by
  induction ms with
  | nil => rfl
  | cons m rest ih =>
      rw [erase, List.filter_cons]
      split
      · next hm =>
          have hne : ¬ m.1.sameKey (.str key) = true := by
            intro hsame
            rw [Value.sameKey_str_iff.1 hsame] at hm
            simp [Value.isStr] at hm
          rw [find?_cons, if_neg hne]
          exact ih
      · exact ih

theorem find_set_of_ne (h : key ≠ other) (ms : Members) (v : Value) :
    find (set ms key v) other = find ms other := by
  rw [find, find, find?_set_of_ne h]

end Members

namespace Value

/-- The members of a mapping, and none of anything else. -/
def membersOrNil : Value → Members
  | .map _ ms => ms
  | _ => []

theorem membersOrNil_of_falsy {v : Value} (h : v.isTruthy = false) : v.membersOrNil = [] := by
  cases v with
  | map _ ms => simpa [isTruthy, membersOrNil] using h
  | _ => rfl

/-- Whether members are asked for in vain. -/
def lacksMembers (v : Value) : Bool := v.isTruthy && !v.isMap

theorem membersIfAny_eq (v : Value) :
    v.membersIfAny = if v.lacksMembers then .error .noMembers else .ok v.membersOrNil := by
  unfold membersIfAny lacksMembers
  cases htruthy : v.isTruthy with
  | false =>
      rw [membersOrNil_of_falsy htruthy]
      rfl
  | true => cases v <;> rfl

/-- Where members can be asked for, they are those of a mapping if there is one. -/
theorem membersIfAny_map (c : Option Nat) (ms : Members) : (map c ms).membersIfAny = .ok ms := by
  cases ms <;> rfl

theorem eq_membersOrNil {v : Value} (h : v.membersIfAny = .ok ms) : ms = v.membersOrNil := by
  rw [membersIfAny_eq] at h
  split at h
  · cases h
  · exact (Except.ok.inj h).symm

/-- The mappings in a list, and none of anything else. -/
def mappingsOrNil : Value → List Members
  | .list items => mappings items
  | _ => []

/-- Whether a value is asked in vain what it consists of. -/
def lacksItems (v : Value) : Bool :=
  match v with
  | .list _ | .set _ | .map _ _ | .str _ | .bytes _ => false
  | v => v.isTruthy

theorem mappingsIfAny_eq (v : Value) :
    v.mappingsIfAny = if v.lacksItems then .error .wrongKind else .ok v.mappingsOrNil := by
  unfold mappingsIfAny lacksItems
  cases v with
  | list items =>
      cases items with
      | nil => rfl
      | cons v rest => rfl
  | _ => simp only []; split <;> rfl

theorem eq_mappingsOrNil {v : Value} {mss : List Members} (h : v.mappingsIfAny = .ok mss) :
    mss = v.mappingsOrNil := by
  rw [mappingsIfAny_eq] at h
  split at h
  · cases h
  · exact (Except.ok.inj h).symm

end Value

end ApiOutline
