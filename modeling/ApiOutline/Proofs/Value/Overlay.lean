import ApiOutline.Proofs.Value.Members

/-!
# Members changed in place

Members can be written one after the other, taken out, and have their values
changed without a look at the keys. The lemmas here say in which order these
can be done: a key that is taken out at the end might have been taken out at
the start, and values might have been changed before they were written.
-/

namespace ApiOutline

namespace Value

variable {k k' : Value} {key : String}

theorem sameKey_str_iff_left : (Value.str key).sameKey k = true ↔ k = .str key := by
  cases k with
  | str s => rw [sameKey, beq_iff_eq, Value.str.injEq]; exact eq_comm
  | _ => simp [sameKey]

theorem isStr_iff : k.isStr key = true ↔ k = .str key := by
  cases k <;> simp [isStr]

theorem isStr_eq_of_sameKey (h : k.sameKey k' = true) : k.isStr key = k'.isStr key := by
  rw [Bool.eq_iff_iff, isStr_iff, isStr_iff]
  constructor
  · rintro rfl
    exact sameKey_str_iff_left.1 h
  · rintro rfl
    exact sameKey_str_iff.1 h

end Value

namespace Members

variable {φ : Value → Value} {ms base upper : Members} {k v : Value} {key : String}

/-- The members with other values. -/
def mapValues (φ : Value → Value) (ms : Members) : Members :=
  ms.map fun m => (m.1, φ m.2)

theorem mem_mapValues : (k, v) ∈ mapValues φ ms ↔ ∃ w, (k, w) ∈ ms ∧ φ w = v := by
  simp [mapValues, and_left_comm]

theorem find?_mapValues (φ : Value → Value) (ms : Members) (key : String) :
    find? (mapValues φ ms) key = (find? ms key).map φ := by
  induction ms with
  | nil => rfl
  | cons m rest ih =>
      rw [mapValues, List.map_cons, find?_cons, find?_cons]
      split
      · rfl
      · exact ih

theorem put_mapValues (φ : Value → Value) (ms : Members) (k v : Value) :
    put (mapValues φ ms) k (φ v) = mapValues φ (put ms k v) := by
  induction ms with
  | nil => rfl
  | cons m rest ih =>
      rw [mapValues, List.map_cons, put, put]
      split
      · rfl
      · exact congrArg _ ih

/-- A value that stays as it is may be written before or after. -/
theorem mapValues_set (ms : Members) (h : φ v = v) :
    mapValues φ (set ms key v) = set (mapValues φ ms) key v := by
  rw [set, ← put_mapValues, h]
  rfl

theorem erase_mapValues (φ : Value → Value) (ms : Members) (key : String) :
    erase (mapValues φ ms) key = mapValues φ (erase ms key) := by
  rw [erase, mapValues, List.filter_map]
  rfl

theorem overlay_mapValues (φ : Value → Value) (base upper : Members) :
    overlay (mapValues φ base) (mapValues φ upper) = mapValues φ (overlay base upper) := by
  induction upper generalizing base with
  | nil => rfl
  | cons m rest ih =>
      show overlay (put (mapValues φ base) m.1 (φ m.2)) (mapValues φ rest) = _
      rw [put_mapValues]
      exact ih (put base m.1 m.2)

/-- Of two values written under one text the later one counts. -/
theorem set_set (ms : Members) (key : String) (v w : Value) :
    set (set ms key v) key w = set ms key w := by
  unfold set
  induction ms with
  | nil => simp [put, Value.sameKey]
  | cons m rest ih =>
      rw [put, put]
      split
      · next h => rw [put, if_pos h]
      · next h => rw [put, if_neg h, ih]

/-! ## What is taken out -/

theorem erase_cons (m : Value × Value) (rest : Members) (key : String) :
    erase (m :: rest) key = if m.1.isStr key then erase rest key else m :: erase rest key := by
  rw [erase, List.filter_cons]
  cases m.1.isStr key <;> rfl

theorem erase_put (ms : Members) (k v : Value) (key : String) :
    erase (put ms k v) key = if k.isStr key then erase ms key else put (erase ms key) k v := by
  induction ms with
  | nil => exact erase_cons (k, v) [] key
  | cons m rest ih =>
      rw [put, erase_cons]
      split
      · next hsame =>
          -- The key that is there stays, and it is taken out exactly if the new one is.
          rw [erase_cons, Value.isStr_eq_of_sameKey hsame]
          split
          · rfl
          · rw [put, if_pos hsame]
      · next hother =>
          rw [erase_cons, ih]
          split
          · rfl
          · split
            · rfl
            · rw [put, if_neg hother]

theorem erase_set_self (ms : Members) (key : String) (v : Value) :
    erase (set ms key v) key = erase ms key := by
  rw [set, erase_put, if_pos (by simp [Value.isStr])]

theorem erase_overlay (base upper : Members) (key : String) :
    erase (overlay base upper) key = overlay (erase base key) (erase upper key) := by
  induction upper generalizing base with
  | nil => rfl
  | cons m rest ih =>
      show erase (overlay (put base m.1 m.2) rest) key = _
      rw [ih, erase_put, erase_cons]
      split
      · rfl
      · rfl

theorem erase_comm (ms : Members) (key other : String) :
    erase (erase ms key) other = erase (erase ms other) key := by
  rw [erase, erase, erase, erase, List.filter_filter, List.filter_filter]
  refine List.filter_congr fun m _ => ?_
  exact Bool.and_comm _ _

/-! ## Members of what is put together -/

/-- A member was there, or its value was written under its key. -/
theorem mem_put {m : Value × Value} (h : m ∈ put ms k v) :
    m ∈ ms ∨ (m.1 = k ∨ m.1.sameKey k = true) ∧ m.2 = v := by
  induction ms with
  | nil =>
      cases List.mem_singleton.1 h
      exact Or.inr ⟨Or.inl rfl, rfl⟩
  | cons m' rest ih =>
      rw [put] at h
      split at h
      · next hsame =>
          rcases List.mem_cons.1 h with rfl | hrest
          · exact Or.inr ⟨Or.inr hsame, rfl⟩
          · exact Or.inl (List.mem_cons_of_mem _ hrest)
      · rcases List.mem_cons.1 h with rfl | hrest
        · exact Or.inl List.mem_cons_self
        · exact (ih hrest).imp_left (List.mem_cons_of_mem _)

/-- What stands under a text was there or was written under it. -/
theorem mem_put_str {w : Value} (h : (.str key, v) ∈ put ms k w) :
    (.str key, v) ∈ ms ∨ k = .str key ∧ v = w := by
  rcases mem_put h with hmem | ⟨rfl | hsame, hv⟩
  · exact Or.inl hmem
  · exact Or.inr ⟨rfl, hv⟩
  · exact Or.inr ⟨Value.sameKey_str_iff_left.1 hsame, hv⟩

theorem mem_overlay (h : (.str key, v) ∈ overlay base upper) :
    (.str key, v) ∈ base ∨ (.str key, v) ∈ upper := by
  induction upper generalizing base with
  | nil => exact Or.inl h
  | cons m rest ih =>
      rcases ih h with hbase | hrest
      · rcases mem_put_str hbase with hbase | ⟨hkey, rfl⟩
        · exact Or.inl hbase
        · rw [← hkey]
          exact Or.inr List.mem_cons_self
      · exact Or.inr (List.mem_cons_of_mem _ hrest)

end Members

end ApiOutline
