import ApiOutline.Model
import ApiOutline.Proofs.Record.Checked
import ApiOutline.Proofs.Value.Members

/-!
# What a field is read from

Each part of a field is read from one member, whatever the other members say
(`Field.read_eq_accepted`). The elements of a field are a field themselves, and
statements about a field at every depth are statements about all fields within
it (`Field.Within`).

A field keeps some values as they stand in the document (`Field.HasFree`). A
change of these is a change of nothing else, and no change at all if each of
them stays what it is (`mapFree_of_fixed`).
-/

namespace ApiOutline

/-- A change that leaves each element as it is leaves the list as it is. -/
theorem map_eq_self {α : Type} {g : α → α} {xs : List α} (h : ∀ x ∈ xs, g x = x) :
    xs.map g = xs :=
  (List.map_congr_left h).trans (List.map_id xs)

namespace Field

open Record (Checked)

variable {ms : Members} {f : Field}

/-- Whether a field is what some members say, each part read by itself. -/
structure IsReadFrom (ms : Members) (f : Field) : Prop where
  name : Record.optional ms "name" [] none (Record.nullable Record.text) = .accepted f.name
  type : Record.optional ms "type" [] none (Record.nullable Record.text) = .accepted f.type
  ref : Record.optional ms "$ref" ["ref"] none (Record.nullable Record.text) = .accepted f.ref
  description : Record.optional ms "description" [] none (Record.nullable Record.text) =
    .accepted f.description
  enum : Record.optional ms "enum" [] none (Record.nullable (Record.listOf Record.anything)) =
    .accepted f.enum
  sample : Record.optional ms "example" [] none (Record.nullable Record.anything) =
    .accepted f.sample
  format : Record.optional ms "format" [] none (Record.nullable Record.text) = .accepted f.format
  items : (readItems ms).under (.member "items") = .accepted f.items
  default : Record.optional ms "default" [] none (Record.nullable Record.anything) =
    .accepted f.default
  minimum : Record.optional ms "minimum" [] none (Record.nullable Record.number) =
    .accepted f.minimum
  maximum : Record.optional ms "maximum" [] none (Record.nullable Record.number) =
    .accepted f.maximum
  required : Record.optional ms "required" [] none (Record.nullable Record.truth) =
    .accepted f.required

theorem read_eq_accepted {cell : Option Nat} :
    read (.map cell ms) = .accepted f ↔ IsReadFrom ms f := by
  rw [read]
  constructor
  · intro h
    obtain ⟨_, _, h, hrequired, h11⟩ := Checked.both_eq_accepted h
    obtain ⟨_, _, h, hmaximum, h10⟩ := Checked.both_eq_accepted h
    obtain ⟨_, _, h, hminimum, h9⟩ := Checked.both_eq_accepted h
    obtain ⟨_, _, h, hdefault, h8⟩ := Checked.both_eq_accepted h
    obtain ⟨_, _, h, hitems, h7⟩ := Checked.both_eq_accepted h
    obtain ⟨_, _, h, hformat, h6⟩ := Checked.both_eq_accepted h
    obtain ⟨_, _, h, hsample, h5⟩ := Checked.both_eq_accepted h
    obtain ⟨_, _, h, henum, h4⟩ := Checked.both_eq_accepted h
    obtain ⟨_, _, h, hdescription, h3⟩ := Checked.both_eq_accepted h
    obtain ⟨_, _, h, href, h2⟩ := Checked.both_eq_accepted h
    obtain ⟨_, _, h, htype, h1⟩ := Checked.both_eq_accepted h
    obtain ⟨_, hname, h0⟩ := Checked.map_eq_accepted h
    subst h0 h1 h2 h3 h4 h5 h6 h7 h8 h9 h10 h11
    exact ⟨hname, htype, href, hdescription, henum, hsample, hformat, hitems, hdefault, hminimum,
      hmaximum, hrequired⟩
  · intro h
    cases f
    have h1 := Checked.both_accepted (Checked.map_accepted_of mk h.name) h.type
    have h2 := Checked.both_accepted h1 h.ref
    have h3 := Checked.both_accepted h2 h.description
    have h4 := Checked.both_accepted h3 h.enum
    have h5 := Checked.both_accepted h4 h.sample
    have h6 := Checked.both_accepted h5 h.format
    have h7 := Checked.both_accepted h6 h.items
    have h8 := Checked.both_accepted h7 h.default
    have h9 := Checked.both_accepted h8 h.minimum
    have h10 := Checked.both_accepted h9 h.maximum
    exact Checked.both_accepted h10 h.required

/-- The field of the elements is what stands under `items`. -/
theorem readItems_eq (ms : Members) :
    readItems ms =
      match Members.find? ms "items" with
      | none | some .null => .accepted none
      | some (.map c inner) => some <$> read (.map c inner)
      | some _ => .fault .notRecord := by
  induction ms with
  | nil => rfl
  | cons m rest ih =>
      obtain ⟨k, v⟩ := m
      rw [Members.find?_cons]
      unfold readItems
      split
      · cases v <;> rfl
      · exact ih

/-- Whether the second field is the first, or the field of its elements, and so on inwards. -/
inductive Within : Field → Field → Prop
  | self (f : Field) : Within f f
  | elements {f inner g : Field} (items : f.items = some inner) (within : Within inner g) :
      Within f g

/-- A field without elements has no other field within it. -/
theorem Within.eq_of_flat {f g : Field} (h : f.Within g) (hflat : f.items = none) : g = f := by
  cases h with
  | self => rfl
  | elements hitems _ => rw [hflat] at hitems; cases hitems

/-! ## Free values -/

/-- Whether a value is a free value of a field, at some depth. -/
inductive HasFree : Field → Value → Prop
  | choice {f : Field} {items : List Value} {v : Value} (choices : f.enum = some items)
      (isChoice : v ∈ items) : HasFree f v
  | sample {f : Field} {v : Value} (isSample : f.sample = some v) : HasFree f v
  | default {f : Field} {v : Value} (isDefault : f.default = some v) : HasFree f v
  | elements {f inner : Field} {v : Value} (items : f.items = some inner)
      (free : HasFree inner v) : HasFree f v

variable {g : Value → Value}

theorem mapFree_eq (g : Value → Value) (f : Field) :
    f.mapFree g =
      { f with
        enum := f.enum.map (List.map g)
        sample := f.sample.map g
        items := f.items.map (mapFree g)
        default := f.default.map g } := by
  obtain ⟨_, _, _, _, _, _, _, items, _, _, _, _⟩ := f
  cases items <;> rfl

theorem Within.mapFree {f inner : Field} (h : (f.mapFree g).Within inner) :
    ∃ before, f.Within before ∧ inner = before.mapFree g := by
  generalize hf : f.mapFree g = f' at h
  induction h generalizing f with
  | self => exact ⟨f, .self f, hf.symm⟩
  | elements hitems _ ih =>
      rw [← hf, mapFree_eq] at hitems
      obtain ⟨before, hbefore, hmapped⟩ := Option.map_eq_some_iff.1 hitems
      obtain ⟨inmost, hwithin, heq⟩ := ih hmapped
      exact ⟨inmost, .elements hbefore hwithin, heq⟩

theorem sizeOf_items_lt {f inner : Field} (h : f.items = some inner) : sizeOf inner < sizeOf f := by
  cases f
  cases h
  simp only [Field.mk.sizeOf_spec, Option.some.sizeOf_spec]
  omega

/-- A change that leaves each free value of a field as it is leaves the field as it is. -/
theorem mapFree_of_fixed (f : Field) (h : ∀ v, f.HasFree v → g v = v) : f.mapFree g = f := by
  have hsame : ∀ x : Option Value, (∀ v, x = some v → g v = v) → x.map g = x := by
    intro x hx
    cases x with
    | none => rfl
    | some v => exact congrArg some (hx v rfl)
  have henum : f.enum.map (List.map g) = f.enum := by
    cases hchoices : f.enum with
    | none => rfl
    | some items =>
        exact congrArg some (map_eq_self fun v hv => h v (.choice hchoices hv))
  have hitems : f.items.map (mapFree g) = f.items := by
    cases hinner : f.items with
    | none => rfl
    | some inner =>
        exact congrArg some (mapFree_of_fixed inner fun v hv => h v (.elements hinner hv))
  rw [mapFree_eq, henum, hitems, hsame f.sample fun v hv => h v (.sample hv),
    hsame f.default fun v hv => h v (.default hv)]
  cases f
  rfl
termination_by sizeOf f
decreasing_by exact sizeOf_items_lt hinner

end Field

namespace Model

variable {g : Value → Value} {m : Model}

theorem mem_fields_mapFree {f : Field} :
    f ∈ (m.mapFree g).fields ↔ ∃ before ∈ m.fields, before.mapFree g = f :=
  List.mem_map

theorem mapFree_of_fixed (h : ∀ f ∈ m.fields, ∀ v, f.HasFree v → g v = v) : m.mapFree g = m := by
  have hfields : m.fields.map (Field.mapFree g) = m.fields :=
    map_eq_self fun f hf => f.mapFree_of_fixed (h f hf)
  rw [mapFree, hfields]

end Model

end ApiOutline
