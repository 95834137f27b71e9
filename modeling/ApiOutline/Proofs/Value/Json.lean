import ApiOutline.Proofs.Value.Members
import ApiOutline.Record.Scalar

/-!
# Values of JSON

JSON knows fewer values than documents have: keys are texts, and there are no
bytes, dates and sets. It has no way to put one mapping in two places either.
What is found in such a value is such a value.
-/

namespace ApiOutline

namespace Value

mutual

/-- Whether a value can be written in JSON. -/
def isJson : Value → Bool
  | .null => true
  | .bool _ => true
  | .int _ => true
  | .float _ => true
  | .str _ => true
  | .list items => areJson items
  | .map cell ms => cell.isNone && haveJson ms
  | _ => false

def areJson : List Value → Bool
  | [] => true
  | v :: rest => isJson v && areJson rest

def haveJson : List (Value × Value) → Bool
  | [] => true
  | (k, v) :: rest => k.isText && isJson v && haveJson rest

end

variable {cell : Option Nat} {ms : Members} {v : Value}

theorem areJson_iff {items : List Value} : areJson items = true ↔ ∀ v ∈ items, v.isJson = true := by
  induction items with
  | nil => simp [areJson]
  | cons v rest ih => rw [areJson, Bool.and_eq_true, ih, List.forall_mem_cons]

theorem haveJson_iff :
    haveJson ms = true ↔ ∀ m ∈ ms, m.1.isText = true ∧ m.2.isJson = true := by
  induction ms with
  | nil => simp [haveJson]
  | cons m rest ih =>
      obtain ⟨k, v⟩ := m
      rw [haveJson, Bool.and_eq_true, Bool.and_eq_true, ih, List.forall_mem_cons]

theorem isJson_map : (Value.map cell ms).isJson = true ↔
    cell = none ∧ ∀ m ∈ ms, m.1.isText = true ∧ m.2.isJson = true := by
  rw [isJson, Bool.and_eq_true, haveJson_iff, Option.isNone_iff_eq_none]

theorem isJson_of_mem {k : Value} (h : (Value.map cell ms).isJson = true) (hm : (k, v) ∈ ms) :
    v.isJson = true :=
  ((isJson_map.1 h).2 _ hm).2

theorem isJson_find (h : (Value.map cell ms).isJson = true) (key : String) :
    (Members.find ms key).isJson = true := by
  unfold Members.find
  cases hfind : Members.find? ms key with
  | none => rfl
  | some v => exact isJson_of_mem h (Members.mem_of_find? hfind)

theorem isJson_membersOrNil (h : v.isJson = true) :
    (Value.map none v.membersOrNil).isJson = true := by
  cases v with
  | map cell ms =>
      rw [isJson_map] at h ⊢
      exact ⟨rfl, h.2⟩
  | _ => rfl

theorem isJson_find_membersOrNil (h : v.isJson = true) (key : String) :
    (Members.find v.membersOrNil key).isJson = true :=
  isJson_find (isJson_membersOrNil h) key

/-- Among the values of JSON only texts are read as texts. -/
theorem eq_str_of_text {s : String} (hjson : v.isJson = true)
    (h : Record.text v = .accepted s) : v = .str s := by
  cases v with
  | str t => cases h; rfl
  | bytes bs => cases hjson
  | _ => cases h

end Value

end ApiOutline
