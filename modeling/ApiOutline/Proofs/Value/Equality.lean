import ApiOutline.Value.Basic

/-!
# Comparing values

Whether two values are the same is decided part by part, cells and all. The
keys of two mappings stand in one order then, and two spellings of a number
are two values.
-/

namespace ApiOutline

namespace Value

mutual

/-- Whether two values are the same, cells and all. -/
def same : Value → Value → Bool
  | .null, .null => true
  | .bool a, .bool b => a == b
  | .int a, .int b => a == b
  | .float x, .float y => decide (x = y)
  | .str a, .str b => a == b
  | .bytes a, .bytes b => a == b
  | .date a, .date b => decide (a = b)
  | .moment a, .moment b => decide (a = b)
  | .list a, .list b => sameList a b
  | .set a, .set b => sameList a b
  | .map c a, .map c' b => c == c' && sameMembers a b
  | _, _ => false

def sameList : List Value → List Value → Bool
  | [], [] => true
  | v :: a, w :: b => same v w && sameList a b
  | _, _ => false

def sameMembers : List (Value × Value) → List (Value × Value) → Bool
  | [], [] => true
  | (k, v) :: a, (k', w) :: b => same k k' && same v w && sameMembers a b
  | _, _ => false

end

mutual

theorem same_iff : ∀ v w : Value, v.same w = true ↔ v = w
  | .list a, w => by cases w <;> simp [same, sameList_iff a]
  | .set a, w => by cases w <;> simp [same, sameList_iff a]
  | .map c a, w => by cases w <;> simp [same, sameMembers_iff a]
  | .null, w | .bool _, w | .int _, w | .float _, w | .str _, w | .bytes _, w
  | .date _, w | .moment _, w => by cases w <;> simp [same]

theorem sameList_iff : ∀ a b : List Value, sameList a b = true ↔ a = b
  | [], b => by cases b <;> simp [sameList]
  | v :: a, b => by cases b <;> simp [sameList, same_iff v, sameList_iff a]

theorem sameMembers_iff : ∀ a b : List (Value × Value), sameMembers a b = true ↔ a = b
  | [], b => by cases b <;> simp [sameMembers]
  | (k, v) :: a, b => by
      cases b with
      | nil => simp [sameMembers]
      | cons m rest => simp [sameMembers, same_iff k, same_iff v, sameMembers_iff a, Prod.ext_iff]

end

instance : DecidableEq Value := fun v w => decidable_of_iff _ (same_iff v w)

end Value

end ApiOutline
