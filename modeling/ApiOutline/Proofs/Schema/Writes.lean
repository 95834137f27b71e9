import ApiOutline.Proofs.Field
import ApiOutline.Proofs.Value.Overlay
import ApiOutline.Schema.Extract

/-!
# What a written description changes

A description is written into the mapping of one cell, wherever that mapping
stands. In every other way a value is what it was: scalars are untouched, a
mapping keeps its members, and only its description may be another text
(`Described`). A value in which the cell does not stand is left alone
(`apply_of_not_holds`), and so is a model that keeps no other values
(`settle_of_fixed`).
-/

namespace ApiOutline

namespace Value

mutual

/-- Whether the mapping of a cell stands in a value. -/
def holds (cell : Nat) : Value → Bool
  | .list items => holdsList cell items
  | .map c ms => c == some cell || holdsMembers cell ms
  | _ => false

def holdsList (cell : Nat) : List Value → Bool
  | [] => false
  | v :: rest => holds cell v || holdsList cell rest

def holdsMembers (cell : Nat) : List (Value × Value) → Bool
  | [] => false
  | (_, v) :: rest => holds cell v || holdsMembers cell rest

end

mutual

theorem writeAt_of_not_holds {cell : Nat} (key text : String) :
    ∀ v : Value, v.holds cell = false → v.writeAt cell key text = v
  | .list items, h => by rw [writeAt, writeAtList_of_not_holds key text items h]
  | .map c ms, h => by
      rw [holds, Bool.or_eq_false_iff, beq_eq_false_iff_ne] at h
      rw [writeAt, writeAtMembers_of_not_holds key text ms h.2]
      simp only [if_neg h.1]
  | .set _, _ | .null, _ | .bool _, _ | .int _, _ | .float _, _ | .str _, _ | .bytes _, _
  | .date _, _ | .moment _, _ => rfl

theorem writeAtList_of_not_holds {cell : Nat} (key text : String) :
    ∀ items : List Value, holdsList cell items = false → writeAtList cell key text items = items
  | [], _ => rfl
  | v :: rest, h => by
      rw [holdsList, Bool.or_eq_false_iff] at h
      rw [writeAtList, writeAt_of_not_holds key text v h.1,
        writeAtList_of_not_holds key text rest h.2]

theorem writeAtMembers_of_not_holds {cell : Nat} (key text : String) :
    ∀ ms : List (Value × Value), holdsMembers cell ms = false →
      writeAtMembers cell key text ms = ms
  | [], _ => rfl
  | (k, v) :: rest, h => by
      rw [holdsMembers, Bool.or_eq_false_iff] at h
      rw [writeAtMembers, writeAt_of_not_holds key text v h.1,
        writeAtMembers_of_not_holds key text rest h.2]

end

theorem writeAtList_eq_map (cell : Nat) (key text : String) (items : List Value) :
    writeAtList cell key text items = items.map (writeAt cell key text) := by
  induction items with
  | nil => rfl
  | cons v rest ih => rw [writeAtList, ih, List.map_cons]

theorem writeAtMembers_eq_mapValues (cell : Nat) (key text : String) (ms : Members) :
    writeAtMembers cell key text ms = Members.mapValues (writeAt cell key text) ms := by
  induction ms with
  | nil => rfl
  | cons m rest ih =>
      obtain ⟨k, v⟩ := m
      rw [writeAtMembers, ih]
      rfl

end Value

namespace Schema

namespace Writes

variable {ws : Writes} {c : Option Nat} {ms ms' : Members} {v : Value} {key : String}

theorem apply_cons (w : Nat × String) (ws : Writes) (v : Value) :
    Writes.apply (w :: ws) v = ws.apply (v.writeAt w.1 "description" w.2) := rfl

theorem apply_append (ws ws' : Writes) (v : Value) :
    Writes.apply (ws ++ ws') v = Writes.apply ws' (ws.apply v) := by
  rw [Writes.apply, List.foldl_append]
  rfl

theorem apply_of_not_holds (h : ∀ w ∈ ws, v.holds w.1 = false) : ws.apply v = v := by
  induction ws with
  | nil => rfl
  | cons w rest ih =>
      obtain ⟨hw, hrest⟩ := List.forall_mem_cons.1 h
      rw [apply_cons, Value.writeAt_of_not_holds _ _ v hw]
      exact ih hrest

theorem apply_str (ws : Writes) (s : String) : ws.apply (.str s) = .str s :=
  apply_of_not_holds fun _ _ => rfl

theorem apply_null (ws : Writes) : ws.apply .null = .null :=
  apply_of_not_holds fun _ _ => rfl

theorem apply_list (ws : Writes) (items : List Value) :
    ws.apply (.list items) = .list (items.map ws.apply) := by
  induction ws generalizing items with
  | nil => exact congrArg Value.list (List.map_id items).symm
  | cons w rest ih =>
      rw [apply_cons, Value.writeAt, Value.writeAtList_eq_map, ih, List.map_map]
      rfl

/-- Whether a mapping is what it was, its inner values written to and its description given. -/
def Described (ws : Writes) (ms ms' : Members) : Prop :=
  ms' = Members.mapValues ws.apply ms ∨
    ∃ text, ms' = Members.set (Members.mapValues ws.apply ms) "description" (.str text)

theorem apply_map (ws : Writes) (c : Option Nat) (ms : Members) :
    ∃ ms', ws.apply (.map c ms) = .map c ms' ∧ Described ws ms ms' := by
  induction ws generalizing ms with
  | nil => exact ⟨ms, rfl, Or.inl (List.map_id _).symm⟩
  | cons w rest ih =>
      have hinner : ∀ ms : Members, Members.mapValues (Writes.apply rest)
          (Members.mapValues (Value.writeAt w.1 "description" w.2) ms) =
            Members.mapValues (Writes.apply (w :: rest)) ms := by
        intro ms
        rw [Members.mapValues, Members.mapValues, List.map_map]
        rfl
      obtain ⟨ms', hms', hdescribed⟩ := ih (if c = some w.1 then
        Members.set (Value.writeAtMembers w.1 "description" w.2 ms) "description" (.str w.2)
        else Value.writeAtMembers w.1 "description" w.2 ms)
      refine ⟨ms', hms', ?_⟩
      unfold Described at hdescribed ⊢
      split at hdescribed
      · -- The text that is written now counts, unless another one follows.
        rw [Value.writeAtMembers_eq_mapValues, Members.mapValues_set _ (apply_str rest w.2),
          hinner] at hdescribed
        rcases hdescribed with hlast | ⟨text, hlast⟩
        · exact Or.inr ⟨w.2, hlast⟩
        · rw [Members.set_set] at hlast
          exact Or.inr ⟨text, hlast⟩
      · rw [Value.writeAtMembers_eq_mapValues, hinner] at hdescribed
        exact hdescribed

/-! ## What is found afterwards -/

theorem Described.mem (h : Described ws ms ms') {k : Value} (hmem : (k, v) ∈ ms') :
    (∃ w, (k, w) ∈ ms ∧ v = ws.apply w) ∨ ∃ text, k = .str "description" ∧ v = .str text := by
  rcases h with rfl | ⟨text, rfl⟩
  · obtain ⟨w, hw, rfl⟩ := Members.mem_mapValues.1 hmem
    exact Or.inl ⟨w, hw, rfl⟩
  · rcases Members.mem_put hmem with hold | ⟨hkey | hkey, hv⟩
    · obtain ⟨w, hw, rfl⟩ := Members.mem_mapValues.1 hold
      exact Or.inl ⟨w, hw, rfl⟩
    · exact Or.inr ⟨text, hkey, hv⟩
    · exact Or.inr ⟨text, Value.sameKey_str_iff.1 hkey, hv⟩

/-- Whether members are those of a mapping that was written to, its description aside. -/
def Alike (ws : Writes) (ms ms' : Members) : Prop :=
  Members.erase ms' "description" =
    Members.mapValues ws.apply (Members.erase ms "description")

theorem Described.alike (h : Described ws ms ms') : Alike ws ms ms' := by
  rcases h with rfl | ⟨text, rfl⟩
  · exact Members.erase_mapValues _ _ _
  · rw [Alike, Members.erase_set_self, Members.erase_mapValues]

theorem Alike.find? (h : Alike ws ms ms') (hkey : key ≠ "description") :
    Members.find? ms' key = (Members.find? ms key).map ws.apply := by
  rw [← Members.find?_erase_of_ne (Ne.symm hkey) ms', h, Members.find?_mapValues,
    Members.find?_erase_of_ne (Ne.symm hkey)]

theorem Alike.find (h : Alike ws ms ms') (hkey : key ≠ "description") :
    Members.find ms' key = ws.apply (Members.find ms key) := by
  rw [Members.find, h.find? hkey, Members.find]
  cases Members.find? ms key with
  | none => exact (apply_null ws).symm
  | some v => rfl

theorem Alike.overlay {base base' upper upper' : Members} (hbase : Alike ws base base')
    (hupper : Alike ws upper upper') :
    Alike ws (Members.overlay base upper) (Members.overlay base' upper') := by
  rw [Alike, Members.erase_overlay, Members.erase_overlay, hbase, hupper,
    Members.overlay_mapValues]

theorem Alike.erase (h : Alike ws ms ms') (key : String) :
    Alike ws (Members.erase ms key) (Members.erase ms' key) := by
  rw [Alike, Members.erase_comm, h, Members.erase_mapValues, Members.erase_comm ms]

theorem apply_scalar (hlist : ∀ items, v ≠ .list items) (hmap : ∀ c ms, v ≠ .map c ms) :
    ws.apply v = v := by
  cases v with
  | list items => exact absurd rfl (hlist items)
  | map c ms => exact absurd rfl (hmap c ms)
  | _ => exact apply_of_not_holds fun _ _ => rfl

/-- What is a key afterwards was the same key before. -/
theorem eq_of_apply_isKey {w : Value} (h : ws.apply v = w) (hkey : w.isKey = true) : v = w := by
  cases v with
  | map c ms =>
      obtain ⟨ms', hms', -⟩ := apply_map ws c ms
      rw [← h, hms'] at hkey
      cases hkey
  | list items =>
      rw [← h, apply_list] at hkey
      cases hkey
  | _ =>
      rw [apply_scalar (by simp) (by simp)] at h
      exact h

/-- What is a mapping afterwards was one before. -/
theorem map_of_apply (h : ws.apply v = .map c ms') :
    ∃ ms, v = .map c ms ∧ Described ws ms ms' := by
  cases v with
  | map c₀ ms =>
      obtain ⟨ms₀, hms₀, hdescribed⟩ := apply_map ws c₀ ms
      cases h.symm.trans hms₀
      exact ⟨ms, rfl, hdescribed⟩
  | list items =>
      rw [apply_list] at h
      cases h
  | _ =>
      rw [apply_scalar (by simp) (by simp)] at h
      cases h

/-- The members of a value are alike after all writes. -/
theorem alike_membersOrNil (ws : Writes) (v : Value) :
    Alike ws v.membersOrNil (ws.apply v).membersOrNil := by
  cases v with
  | map c ms =>
      obtain ⟨ms', hms', hdescribed⟩ := apply_map ws c ms
      rw [hms']
      exact hdescribed.alike
  | list items =>
      rw [apply_list]
      rfl
  | _ =>
      rw [apply_scalar (by simp) (by simp)]
      rfl

theorem mem_membersOrNil_apply {k : Value} {w : Value} (h : (k, w) ∈ (ws.apply v).membersOrNil) :
    (∃ u, (k, u) ∈ v.membersOrNil ∧ w = ws.apply u) ∨
      ∃ text, k = .str "description" ∧ w = .str text := by
  cases happly : ws.apply v with
  | map c ms' =>
      rw [happly] at h
      obtain ⟨ms, rfl, hdescribed⟩ := map_of_apply happly
      exact hdescribed.mem h
  | _ =>
      rw [happly] at h
      cases h

theorem isStr_apply (ws : Writes) (v : Value) (s : String) : (ws.apply v).isStr s = v.isStr s := by
  cases v with
  | map c ms =>
      obtain ⟨ms', hms', -⟩ := apply_map ws c ms
      rw [hms']
      rfl
  | list items => rw [apply_list]; rfl
  | _ => rw [apply_scalar (by simp) (by simp)]

theorem nullable_text_apply (ws : Writes) (v : Value) :
    Record.nullable Record.text (ws.apply v) = Record.nullable Record.text v := by
  cases v with
  | map c ms =>
      obtain ⟨ms', hms', -⟩ := apply_map ws c ms
      rw [hms']
      rfl
  | list items => rw [apply_list]; rfl
  | _ => rw [apply_scalar (by simp) (by simp)]

/-- What is not empty does not become so. -/
theorem isTruthy_apply (ws : Writes) (h : v.isTruthy = true) : (ws.apply v).isTruthy = true := by
  cases v with
  | map c ms =>
      obtain ⟨ms', hms', hdescribed⟩ := apply_map ws c ms
      rw [hms']
      cases ms with
      | nil => cases h
      | cons m rest =>
          rcases hdescribed with rfl | ⟨text, rfl⟩
          · rfl
          · rw [Members.mapValues, List.map_cons, Members.set, Members.put]
            split <;> rfl
  | list items =>
      rw [apply_list]
      cases items with
      | nil => cases h
      | cons v rest => rfl
  | _ => rw [apply_scalar (by simp) (by simp)]; exact h

/-- Members are asked for in vain as before. -/
theorem lacksMembers_apply (ws : Writes) (v : Value) :
    (ws.apply v).lacksMembers = v.lacksMembers := by
  cases v with
  | map c ms =>
      obtain ⟨ms', hms', -⟩ := apply_map ws c ms
      rw [hms', Value.lacksMembers, Value.lacksMembers]
      simp [Value.isMap]
  | list items =>
      rw [apply_list]
      cases items <;> rfl
  | _ => rw [apply_scalar (by simp) (by simp)]

/-! ## Models made before -/

variable {models : List Model}

theorem settle_of_fixed (h : ∀ m ∈ models, ∀ f ∈ m.fields, ∀ v, f.HasFree v → ws.apply v = v) :
    ws.settle models = models :=
  map_eq_self fun m hm => Model.mapFree_of_fixed (h m hm)

@[simp] theorem settle_nil (models : List Model) : Writes.settle [] models = models :=
  settle_of_fixed fun _ _ _ _ _ _ => rfl

@[simp] theorem settle_empty (ws : Writes) : ws.settle [] = [] := rfl

theorem mem_settle {m : Model} :
    m ∈ ws.settle models ↔ ∃ before ∈ models, before.mapFree ws.apply = m :=
  List.mem_map

end Writes

end Schema

end ApiOutline
