import ApiOutline.Proofs.Schema.Model

/-!
# What a property shows

A property, a query parameter and the `items` of either are objects that become
fields. Here is what such a field says of its object (`Shows`): binary content
is a reference to the attachment model and has neither type nor format, and
anything else has the type that was kept, the format as it is written, and the
name at the end of the reference.

The elements of a field come from the `items` of its object
(`gives_of_items`), so a fact about the fields within a field is a fact about
the objects within its object.
-/

namespace ApiOutline

open Record (Checked)

/-- A member that may be null is read from what is found, and nothing found is null. -/
theorem Record.nullable_of_optional {α : Type} {ms : Members} {name : String}
    {read : Value → Checked α} {x : Option α}
    (h : optional ms name [] none (nullable read) = .accepted x) :
    nullable read (Members.find ms name) = .accepted x := by
  unfold optional spelled at h
  unfold Members.find
  cases hfind : Members.find? ms name with
  | none => rw [hfind] at h; exact h
  | some v => rw [hfind] at h; exact Checked.under_eq_accepted h

namespace Schema

variable {object inner ms ms' : Members} {key : String} {f g : Field}

/-- Whether an object, once it is in shape, is read as a field. -/
def Gives (object : Members) (f : Field) : Prop :=
  ∃ shaped, normalize object = .ok shaped ∧ Field.read (.ofMembers shaped) = .accepted f

/-- The field of a property is what its draft gives. -/
theorem fieldOf_eq_ok {required name property : Value} :
    fieldOf required (name, property) = .ok f ↔ Gives (draft required name property) f := by
  constructor
  · intro h
    obtain ⟨shaped, hshaped, hread⟩ := bind_eq_ok.1 h
    exact ⟨shaped, hshaped, checked_eq_ok hread⟩
  · rintro ⟨shaped, hshaped, hread⟩
    exact bind_eq_ok.2 ⟨shaped, hshaped, by rw [hread]; rfl⟩

/-! ## Elements -/

/-- The elements are brought into shape where `items` is a mapping. -/
theorem elementsOf_eq (ms : Members) :
    elementsOf ms =
      match Members.find? ms "items" with
      | some (.map _ inner) => do return some (.map none (← normalize inner))
      | _ => .ok none := by
  induction ms with
  | nil => rw [elementsOf]; rfl
  | cons m rest ih =>
      obtain ⟨k, v⟩ := m
      rw [Members.find?_cons]
      unfold elementsOf
      split
      · cases v <;> rfl
      · exact ih

/-- The elements of a field are read from the `items` of its object. -/
theorem gives_of_items (h : Gives object f) (hitems : f.items = some g) :
    ∃ c inner, Members.find? object "items" = some (.map c inner) ∧ Gives inner g := by
  obtain ⟨members, hmembers, hread⟩ := h
  have hfound := Checked.under_eq_accepted (Field.read_eq_accepted.1 hread).items
  rw [Field.readItems_eq, hitems] at hfound
  rw [normalize, elementsOf_eq] at hmembers
  obtain ⟨shaped, hshaped, hmembers⟩ := bind_eq_ok.1 hmembers
  have hsame := find?_shape hshaped (show "items" ∉ ["$ref", "type", "format"] by decide)
    (Or.inl (by decide))
  split at hmembers
  · next c inner hinner =>
      obtain ⟨elements, helements, hmembers⟩ := bind_eq_ok.1 hmembers
      obtain ⟨normalized, hnormalized, hend⟩ := bind_eq_ok.1 helements
      cases hend
      cases hmembers
      rw [Members.find?_set_self] at hfound
      obtain ⟨g', hg, heq⟩ := Checked.map_eq_accepted hfound
      cases heq
      exact ⟨c, inner, hinner, normalized, hnormalized, hg⟩
  · next hother =>
      cases hmembers
      -- What is no mapping stays as it is, and is not read as a field.
      rw [hsame] at hfound
      split at hfound
      · cases hfound
      · cases hfound
      · next c inner hinner => exact absurd hinner (hother c inner)
      · cases hfound

/-! ## References, types and formats -/

/-- Of several types the first that is not null. -/
def keptType : Value → Value
  | .list types => (types.find? fun t => !t.isStr "null").getD .null
  | v => v

theorem find_chooseType (ms : Members) :
    Members.find (chooseType ms) "type" = keptType (Members.find ms "type") := by
  unfold chooseType
  split
  · next types htypes =>
      rw [htypes, Members.find, Members.find?_set_self]
      rfl
  · next hother =>
      cases htype : Members.find ms "type" with
      | list types => exact absurd htype (hother types)
      | _ => rfl

theorem isBinary_shortenRef (h : shortenRef ms = .ok ms') : isBinary ms' = isBinary ms := by
  unfold isBinary Members.find
  rw [find?_shortenRef h (by decide), find?_shortenRef h (by decide)]

/-- A reference is a text, and its name is what is kept of it. -/
theorem find?_ref_shortenRef (h : shortenRef ms = .ok ms') :
    Members.find? ms "$ref" = none ∧ Members.find? ms' "$ref" = none ∨
    ∃ ref, Members.find? ms "$ref" = some (.str ref) ∧
      Members.find? ms' "$ref" = some (.str (Naming.refName ref)) := by
  unfold shortenRef at h
  split at h
  · next hnone =>
      cases h
      exact Or.inl ⟨hnone, hnone⟩
  · next v hv =>
      obtain ⟨name, hname, h⟩ := bind_eq_ok.1 h
      cases h
      cases v with
      | str ref =>
          cases hname
          exact Or.inr ⟨ref, hv, Members.find?_set_self ms "$ref" _⟩
      | _ => cases hname

/-- What a field says of the object that it is read from. -/
structure Shows (object : Members) (f : Field) : Prop where
  binary : isBinary object = true → f.ref = some attachmentName ∧ f.type = none ∧ f.format = none
  type : isBinary object = false → Record.nullable Record.text
    (keptType (Members.find object "type")) = .accepted f.type
  format : isBinary object = false → Record.nullable Record.text
    (Members.find object "format") = .accepted f.format
  ref : isBinary object = false → ∀ v, Members.find? object "$ref" = some v →
    ∃ ref, v = .str ref ∧ f.ref = some (Naming.refName ref)
  noRef : isBinary object = false → Members.find? object "$ref" = none →
    Members.find? object "ref" = none → f.ref = none

/-- What is kept of an object in shape: only its elements and its mark are still to be seen to. -/
theorem find?_kept {shaped : Members} (h : normalize object = .ok shaped) :
    ∃ short, shortenRef object = .ok short ∧ ∀ key, key ≠ "items" → key ≠ "required" →
      Members.find? shaped key = Members.find? (chooseType (replaceBinary short)) key := by
  rw [normalize] at h
  obtain ⟨ms, hms, h⟩ := bind_eq_ok.1 h
  obtain ⟨items, _, h⟩ := bind_eq_ok.1 h
  obtain ⟨short, hshort, hend⟩ := bind_eq_ok.1 hms
  cases hend
  refine ⟨short, hshort, fun key hitems hrequired => ?_⟩
  have hdrop : Members.find? (dropRequired (chooseType (replaceBinary short))) key =
      Members.find? (chooseType (replaceBinary short)) key := find?_dropRequired (Or.inl hrequired)
  cases items with
  | none => cases h; exact hdrop
  | some items => cases h; exact (Members.find?_set_of_ne hitems.symm _ _).trans hdrop

theorem find?_replaceBinary_of_binary (h : isBinary ms = true) :
    Members.find? (replaceBinary ms) "$ref" = some (.str attachmentName) ∧
      Members.find (replaceBinary ms) "type" = .null ∧
      Members.find (replaceBinary ms) "format" = .null := by
  rw [replaceBinary, if_pos h]
  refine ⟨?_, ?_, ?_⟩
  · rw [Members.find?_erase_of_ne (by decide), Members.find?_erase_of_ne (by decide),
      Members.find?_set_self]
  · rw [Members.find, Members.find?_erase_of_ne (by decide), Members.find?_erase_self]
    rfl
  · rw [Members.find, Members.find?_erase_self]
    rfl

/-- The type, the format and the reference of a field are read from its object once the reference
is shortened and binary content replaced. -/
theorem gives_parts (h : Gives object f) :
    ∃ short, shortenRef object = .ok short ∧
      Record.nullable Record.text (keptType (Members.find (replaceBinary short) "type")) =
        .accepted f.type ∧
      Record.nullable Record.text (Members.find (replaceBinary short) "format") =
        .accepted f.format ∧
      Record.optional (replaceBinary short) "$ref" ["ref"] none (Record.nullable Record.text) =
        .accepted f.ref := by
  obtain ⟨shaped, hshaped, hread⟩ := h
  obtain ⟨short, hshort, hkept⟩ := find?_kept hshaped
  have hread := Field.read_eq_accepted.1 hread
  have htype := Record.nullable_of_optional hread.type
  have hformat := Record.nullable_of_optional hread.format
  have href := hread.ref
  rw [Members.find, hkept "type" (by decide) (by decide), ← Members.find, find_chooseType] at htype
  rw [Members.find, hkept "format" (by decide) (by decide), find?_chooseType (by decide),
    ← Members.find] at hformat
  unfold Record.optional Record.spelled Record.spelled at href
  rw [hkept "$ref" (by decide) (by decide), hkept "ref" (by decide) (by decide),
    find?_chooseType (by decide), find?_chooseType (by decide)] at href
  exact ⟨short, hshort, htype, hformat, href⟩

theorem shows_of_binary (h : Gives object f) (hbinary : isBinary object = true) :
    f.ref = some attachmentName ∧ f.type = none ∧ f.format = none := by
  obtain ⟨short, hshort, htype, hformat, href⟩ := gives_parts h
  rw [← isBinary_shortenRef hshort] at hbinary
  obtain ⟨hrefBinary, htypeBinary, hformatBinary⟩ := find?_replaceBinary_of_binary hbinary
  rw [htypeBinary] at htype
  rw [hformatBinary] at hformat
  rw [Record.optional_of_find? hrefBinary] at href
  exact ⟨(Checked.accepted.inj (Checked.under_eq_accepted href)).symm,
    (Checked.accepted.inj htype).symm, (Checked.accepted.inj hformat).symm⟩

theorem shows_of_gives (h : Gives object f) : Shows object f := by
  cases hbinary : isBinary object with
  | true =>
      have hother : ∀ {p : Prop}, isBinary object = false → p := fun h => by
        rw [hbinary] at h
        cases h
      exact ⟨fun _ => shows_of_binary h hbinary, hother, hother, hother, hother⟩
  | false =>
      obtain ⟨short, hshort, htype, hformat, href⟩ := gives_parts h
      have hreplace : replaceBinary short = short := by
        rw [replaceBinary, isBinary_shortenRef hshort, hbinary, if_neg Bool.false_ne_true]
      rw [hreplace] at htype hformat href
      rw [Members.find, find?_shortenRef hshort (by decide), ← Members.find] at htype hformat
      unfold Record.optional Record.spelled Record.spelled at href
      rw [find?_shortenRef hshort (show "ref" ≠ "$ref" by decide)] at href
      have hother : ∀ {p : Prop}, isBinary object = true → p := fun h => by
        rw [hbinary] at h
        cases h
      refine ⟨hother, fun _ => htype, fun _ => hformat, fun _ v hv => ?_, fun _ hnone hplain => ?_⟩
      · rcases find?_ref_shortenRef hshort with ⟨hnone, -⟩ | ⟨ref, hfound, hname⟩
        · rw [hnone] at hv
          cases hv
        · rw [hname] at href
          rw [hfound] at hv
          cases hv
          exact ⟨ref, rfl, (Checked.accepted.inj href).symm⟩
      · rcases find?_ref_shortenRef hshort with ⟨-, hnone'⟩ | ⟨ref, hfound, -⟩
        · rw [hnone', hplain] at href
          exact (Checked.accepted.inj href).symm
        · rw [hfound] at hnone
          cases hnone

/-- Whether a field shows an object, its elements what stands under `items`, and so on inwards. -/
inductive Depicts : Members → Field → Prop
  | flat {object : Members} {f : Field} (shows : Shows object f) (noItems : f.items = none) :
      Depicts object f
  | list {object inner : Members} {c : Option Nat} {f g : Field} (shows : Shows object f)
      (items : f.items = some g) (found : Members.find? object "items" = some (.map c inner))
      (elements : Depicts inner g) : Depicts object f

theorem Depicts.shows (h : Depicts object f) : Shows object f := by
  cases h with
  | flat hshows _ => exact hshows
  | list hshows _ _ _ => exact hshows

theorem depicts_of_gives {object : Members} {f : Field} (h : Gives object f) :
    Depicts object f := by
  cases hitems : f.items with
  | none => exact .flat (shows_of_gives h) hitems
  | some g =>
      obtain ⟨c, inner, hfound, hinner⟩ := gives_of_items h hitems
      exact .list (shows_of_gives h) hitems hfound (depicts_of_gives hinner)
termination_by sizeOf f
decreasing_by exact Field.sizeOf_items_lt hitems

/-- The members of an object that the shape of its field depends on. -/
def shaping : List String := ["$ref", "ref", "type", "format", "items"]

end Schema

end ApiOutline
