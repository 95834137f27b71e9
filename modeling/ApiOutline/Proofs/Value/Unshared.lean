import ApiOutline.Proofs.Record.Checked
import ApiOutline.Proofs.Value.Members
import ApiOutline.Value.Display

/-!
# What does not depend on sharing

Forgetting which mappings are one keeps everything that a value can be asked
for. It commutes with looking up, writing and taking out, and scalars are not
changed at all, so what is read of a value as a text, a number or a truth value
is the same.
-/

namespace ApiOutline

namespace Value

theorem unsharedList_eq_map (items : List Value) : unsharedList items = items.map unshared := by
  induction items with
  | nil => rfl
  | cons v rest ih => rw [unsharedList, ih, List.map_cons]

theorem unsharedMembers_eq_map (ms : Members) :
    unsharedMembers ms = ms.map fun m => (m.1.unshared, m.2.unshared) := by
  induction ms with
  | nil => rfl
  | cons m rest ih =>
      obtain ⟨k, v⟩ := m
      rw [unsharedMembers, ih, List.map_cons]

variable (v k k' : Value) (s : String)

@[simp] theorem unshared_null : unshared .null = .null := rfl

@[simp] theorem unshared_str : unshared (.str s) = .str s := rfl

@[simp] theorem unshared_bool (b : Bool) : unshared (.bool b) = .bool b := rfl

@[simp] theorem unshared_list (items : List Value) :
    unshared (.list items) = .list (items.map unshared) := by
  rw [unshared, unsharedList_eq_map]

@[simp] theorem unshared_set (items : List Value) :
    unshared (.set items) = .set (items.map unshared) := by
  rw [unshared, unsharedList_eq_map]

@[simp] theorem unshared_map (c : Option Nat) (ms : Members) :
    unshared (.map c ms) = .map none (unsharedMembers ms) := rfl

/-- Only mappings are told apart by their place. -/
theorem unshared_of_isKey (h : v.isKey = true) : v.unshared = v := by
  cases v with
  | list items => cases h
  | set items => cases h
  | map c ms => cases h
  | _ => rfl

@[simp] theorem isKey_unshared : v.unshared.isKey = v.isKey := by
  cases v <;> rfl

@[simp] theorem sameKey_unshared_left : k.unshared.sameKey k' = k.sameKey k' := by
  cases k <;> simp [sameKey, unshared]

@[simp] theorem sameKey_unshared_right : k.sameKey k'.unshared = k.sameKey k' := by
  cases hkey : k'.isKey with
  | true => rw [unshared_of_isKey k' hkey]
  | false => cases k' <;> cases k <;> rfl

@[simp] theorem isTruthy_unshared : v.unshared.isTruthy = v.isTruthy := by
  cases v with
  | list items => cases items <;> rfl
  | set items => cases items <;> rfl
  | map c ms => cases ms <;> rfl
  | _ => rfl

@[simp] theorem isStr_unshared : v.unshared.isStr s = v.isStr s := by
  cases v <;> rfl

@[simp] theorem isTrue_unshared : v.unshared.isTrue = v.isTrue := by
  cases v <;> rfl

@[simp] theorem lacksMembers_unshared : v.unshared.lacksMembers = v.lacksMembers := by
  rw [lacksMembers, isTruthy_unshared, lacksMembers]
  cases v <;> rfl

mutual

theorem shown_unshared : ∀ v : Value, v.unshared.shown = v.shown
  | .list items => by rw [unshared, shown, shown, shownList_unshared items]
  | .set [] => rfl
  | .set (v :: rest) => by
      rw [unshared, unsharedList, shown, shown, shown_unshared v, shownList_unshared rest]
  | .map _ ms => by rw [unshared, shown, shown, shownMembers_unshared ms]
  | .null | .bool _ | .int _ | .float _ | .str _ | .bytes _ | .date _ | .moment _ => rfl

theorem shownList_unshared : ∀ items, shownList (unsharedList items) = shownList items
  | [] => rfl
  | v :: rest => by
      rw [unsharedList, shownList, shownList, shown_unshared v, shownList_unshared rest]

theorem shownMembers_unshared : ∀ ms, shownMembers (unsharedMembers ms) = shownMembers ms
  | [] => rfl
  | (k, v) :: rest => by
      rw [unsharedMembers, shownMembers, shownMembers, shown_unshared k, shown_unshared v,
        shownMembers_unshared rest]

end

@[simp] theorem display_unshared : v.unshared.display = v.display := by
  cases v with
  | list items => exact shown_unshared _
  | set items => exact shown_unshared _
  | map c ms => exact shown_unshared _
  | _ => rfl

end Value

namespace Members

open Value

variable (ms base upper : Members) (key : String) (k v : Value)

theorem get?_unshared : get? (unsharedMembers ms) k = (get? ms k).map unshared := by
  rw [unsharedMembers_eq_map, get?, List.find?_map, get?, Option.map_map, Option.map_map]
  simp only [Function.comp_def, sameKey_unshared_left]

@[simp] theorem find?_unshared :
    find? (unsharedMembers ms) key = (find? ms key).map unshared :=
  get?_unshared ms (.str key)

@[simp] theorem find_unshared : find (unsharedMembers ms) key = (find ms key).unshared := by
  rw [find, find?_unshared, find]
  cases find? ms key <;> rfl

@[simp] theorem has_unshared : has (unsharedMembers ms) k = has ms k := by
  rw [unsharedMembers_eq_map, has, List.any_map, has]
  simp only [Function.comp_def, sameKey_unshared_left]

theorem put_unshared :
    put (unsharedMembers ms) k.unshared v.unshared = unsharedMembers (put ms k v) := by
  induction ms with
  | nil => rfl
  | cons m rest ih =>
      obtain ⟨k', v'⟩ := m
      rw [unsharedMembers, put, put, sameKey_unshared_left, sameKey_unshared_right]
      split
      · rw [unsharedMembers]
      · rw [unsharedMembers, ih]

theorem set_unshared : set (unsharedMembers ms) key v.unshared = unsharedMembers (set ms key v) :=
  put_unshared ms (.str key) v

theorem erase_unshared : erase (unsharedMembers ms) key = unsharedMembers (erase ms key) := by
  rw [unsharedMembers_eq_map, unsharedMembers_eq_map, erase, erase, List.filter_map]
  simp only [Function.comp_def, isStr_unshared]

theorem overlay_unshared :
    overlay (unsharedMembers base) (unsharedMembers upper) =
      unsharedMembers (overlay base upper) := by
  induction upper generalizing base with
  | nil => rfl
  | cons m rest ih =>
      obtain ⟨k, v⟩ := m
      have hrest := ih (put base k v)
      rw [← put_unshared] at hrest
      exact hrest

end Members

namespace Value

variable (v : Value)

@[simp] theorem membersOrNil_unshared :
    v.unshared.membersOrNil = unsharedMembers v.membersOrNil := by
  cases v <;> rfl

theorem members_unshared : v.unshared.members = v.members.map unsharedMembers := by
  cases v <;> rfl

theorem membersIfAny_unshared : v.unshared.membersIfAny = v.membersIfAny.map unsharedMembers := by
  rw [membersIfAny_eq, membersIfAny_eq, lacksMembers_unshared, membersOrNil_unshared]
  split <;> rfl

theorem mappings_unshared (items : List Value) :
    mappings (items.map unshared) = (mappings items).map unsharedMembers := by
  induction items with
  | nil => rfl
  | cons v rest ih =>
      unfold mappings at ih ⊢
      cases v with
      | map c ms => exact congrArg (unsharedMembers ms :: ·) ih
      | _ => exact ih

theorem mappingsIfAny_unshared :
    v.unshared.mappingsIfAny = v.mappingsIfAny.map (List.map unsharedMembers) := by
  unfold mappingsIfAny
  rw [isTruthy_unshared]
  split
  · cases v with
    | list items => rw [unshared_list]; exact congrArg Except.ok (mappings_unshared items)
    | _ => rfl
  · rfl

end Value

/-! ## Readings -/

namespace Record

open Value

variable (v : Value)

@[simp] theorem text_unshared : text v.unshared = text v := by
  cases v <;> rfl

@[simp] theorem number_unshared : number v.unshared = number v := by
  cases v <;> rfl

@[simp] theorem truth_unshared : truth v.unshared = truth v := by
  cases v <;> rfl

theorem spelled_unshared (ms : Members) (names : List String) :
    spelled (unsharedMembers ms) names =
      (spelled ms names).map fun found => (found.1, found.2.unshared) := by
  induction names with
  | nil => rfl
  | cons n rest ih =>
      rw [spelled, spelled, Members.find?_unshared]
      cases Members.find? ms n with
      | none => exact ih
      | some v => rfl

variable {α β : Type} {read : Value → Checked α} {read' : Value → Checked β} {g : α → β}

theorem alike_nullable (h : (read v).Alike (fun x y => y = g x) (read' v.unshared)) :
    (nullable read v).Alike (fun x y => y = x.map g) (nullable read' v.unshared) := by
  cases v with
  | null => exact .accepted rfl
  | _ => exact h.map fun x y hxy => congrArg some hxy

theorem alike_optional {ms : Members} {name : String} {others : List String} {absent : α}
    (h : ∀ v, (read v).Alike (fun x y => y = g x) (read' v.unshared)) :
    (optional ms name others absent read).Alike (fun x y => y = g x)
      (optional (unsharedMembers ms) name others (g absent) read') := by
  unfold optional
  rw [spelled_unshared]
  cases spelled ms (name :: others) with
  | none => exact .accepted rfl
  | some found => exact (h found.2).under _

/-- What does not look at places reads the same member. -/
theorem optional_unshared {ms : Members} {name : String} {others : List String} {absent : α}
    (h : ∀ v, read v.unshared = read v) :
    optional (unsharedMembers ms) name others absent read =
      optional ms name others absent read := by
  unfold optional
  rw [spelled_unshared]
  cases spelled ms (name :: others) with
  | none => rfl
  | some found => exact congrArg (Checked.under _) (h found.2)

theorem nullable_unshared (h : ∀ v, read v.unshared = read v) :
    nullable read v.unshared = nullable read v := by
  cases v with
  | null => rfl
  | _ => exact congrArg (some <$> ·) (h _)

theorem alike_elements {items : List Value} {index : Int}
    (h : ∀ v, (read v).Alike (fun x y => y = g x) (read' v.unshared)) :
    (Checked.elements read index items).Alike (fun xs ys => ys = xs.map g)
      (Checked.elements read' index (items.map unshared)) := by
  induction items generalizing index with
  | nil => exact .accepted rfl
  | cons v rest ih =>
      refine .seq (.map ((h v).under _) fun x y hxy xs ys hxys => ?_) ih
      rw [hxy, hxys, List.map_cons]

theorem alike_listOf (h : ∀ v, (read v).Alike (fun x y => y = g x) (read' v.unshared)) :
    (listOf read v).Alike (fun xs ys => ys = xs.map g) (listOf read' v.unshared) := by
  cases v with
  | list items => rw [unshared_list]; exact alike_elements h
  | set items => rw [unshared_set]; exact alike_elements h
  | _ => exact .refused _

theorem alike_anything :
    (anything v).Alike (fun x y => y = x.unshared) (anything v.unshared) :=
  .accepted rfl

end Record

end ApiOutline
