import ApiOutline.Proofs.Schema.Property
import Mathlib.Data.List.Permutation

/-!
# Properties and their fields

A model has one field for each property of its schema, in order. The key of a
property is the name of the field, and the list of required names alone says
whether the field is required. The rest of the field is what the property says,
and it would be the same if there were no other property
(`fields_mirror_properties`).

What a property says of its own name and of its being required does not count
at all. The reason is that fields are read by looking members up: two lists of
members that say the same under every text (`Members.Agree`) are brought into
shapes that say the same, and the same field is read from both (`Gives.of_agree`).
-/

namespace ApiOutline

/-! ## Members that say the same -/

namespace Members

variable {ms ms' : Members}

/-- Whether two lists of members say the same under every text. -/
def Agree (ms ms' : Members) : Prop := ∀ key : String, find? ms key = find? ms' key

theorem Agree.find (h : Agree ms ms') (key : String) : find ms key = find ms' key := by
  rw [Members.find, Members.find, h]

theorem Agree.set (h : Agree ms ms') (key : String) (v : Value) :
    Agree (set ms key v) (set ms' key v) := by
  intro other
  by_cases hkey : key = other
  · subst hkey
    rw [find?_set_self, find?_set_self]
  · rw [find?_set_of_ne hkey, find?_set_of_ne hkey, h]

theorem Agree.erase (h : Agree ms ms') (key : String) : Agree (erase ms key) (erase ms' key) := by
  intro other
  by_cases hkey : key = other
  · subst hkey
    rw [find?_erase_self, find?_erase_self]
  · rw [find?_erase_of_ne hkey, find?_erase_of_ne hkey, h]

end Members

open Members (Agree)

variable {ms ms' : Members} {f : Field}

namespace Record

theorem spelled_of_agree (h : Agree ms ms') (names : List String) :
    spelled ms names = spelled ms' names := by
  induction names with
  | nil => rfl
  | cons n rest ih => rw [spelled, spelled, h, ih]

theorem optional_of_agree {α : Type} (h : Agree ms ms') (name : String) (others : List String)
    (absent : α) (read : Value → Checked α) :
    optional ms name others absent read = optional ms' name others absent read := by
  rw [optional, optional, spelled_of_agree h]

end Record

theorem Field.IsReadFrom.of_agree (hread : IsReadFrom ms f) (h : Agree ms ms') :
    IsReadFrom ms' f := by
  have hitems : readItems ms' = readItems ms := by rw [readItems_eq, readItems_eq, h]
  have hoptional := fun {α} name others absent read =>
    (Record.optional_of_agree (α := α) h name others absent read).symm
  exact ⟨(hoptional _ _ _ _).trans hread.name, (hoptional _ _ _ _).trans hread.type,
    (hoptional _ _ _ _).trans hread.ref, (hoptional _ _ _ _).trans hread.description,
    (hoptional _ _ _ _).trans hread.enum, (hoptional _ _ _ _).trans hread.sample,
    (hoptional _ _ _ _).trans hread.format, hitems ▸ hread.items,
    (hoptional _ _ _ _).trans hread.default, (hoptional _ _ _ _).trans hread.minimum,
    (hoptional _ _ _ _).trans hread.maximum, (hoptional _ _ _ _).trans hread.required⟩

namespace Schema

/-! ## Shapes that say the same -/

theorem shortenRef_of_agree {short : Members} (h : Agree ms ms')
    (hshort : shortenRef ms = .ok short) :
    ∃ short', shortenRef ms' = .ok short' ∧ Agree short short' := by
  unfold shortenRef at hshort ⊢
  rw [← h]
  split at hshort
  · cases hshort
    exact ⟨ms', rfl, h⟩
  · obtain ⟨name, hname, hend⟩ := bind_eq_ok.1 hshort
    cases hend
    exact ⟨_, bind_eq_ok.2 ⟨name, hname, rfl⟩, h.set _ _⟩

theorem isBinary_of_agree (h : Agree ms ms') : isBinary ms = isBinary ms' := by
  rw [isBinary, isBinary, h.find, h.find]

theorem agree_replaceBinary (h : Agree ms ms') : Agree (replaceBinary ms) (replaceBinary ms') := by
  rw [replaceBinary, replaceBinary, isBinary_of_agree h]
  split
  · exact ((h.set _ _).erase _).erase _
  · exact h

theorem agree_chooseType (h : Agree ms ms') : Agree (chooseType ms) (chooseType ms') := by
  rw [chooseType, chooseType, h.find]
  split
  · exact h.set _ _
  · exact h

theorem agree_dropRequired (h : Agree ms ms') : Agree (dropRequired ms) (dropRequired ms') := by
  rw [dropRequired, dropRequired, h]
  split
  · exact h
  · exact h
  · exact h.erase _

theorem normalize_of_agree {shaped : Members} (h : Agree ms ms')
    (hshaped : normalize ms = .ok shaped) :
    ∃ shaped', normalize ms' = .ok shaped' ∧ Agree shaped shaped' := by
  have helements : elementsOf ms = elementsOf ms' := by rw [elementsOf_eq, elementsOf_eq, h]
  rw [normalize] at hshaped ⊢
  obtain ⟨inner, hinner, hshaped⟩ := bind_eq_ok.1 hshaped
  obtain ⟨short, hshort, hend⟩ := bind_eq_ok.1 hinner
  cases hend
  obtain ⟨items, hitems, hshaped⟩ := bind_eq_ok.1 hshaped
  obtain ⟨short', hshort', hagree⟩ := shortenRef_of_agree h hshort
  have hshape : shape ms' = .ok (dropRequired (chooseType (replaceBinary short'))) :=
    bind_eq_ok.2 ⟨short', hshort', rfl⟩
  have hsame := agree_dropRequired (agree_chooseType (agree_replaceBinary hagree))
  rw [helements] at hitems
  cases items with
  | none =>
      cases hshaped
      exact ⟨_, bind_eq_ok.2 ⟨_, hshape, bind_eq_ok.2 ⟨none, hitems, rfl⟩⟩, hsame⟩
  | some items =>
      cases hshaped
      exact ⟨_, bind_eq_ok.2 ⟨_, hshape, bind_eq_ok.2 ⟨some items, hitems, rfl⟩⟩, hsame.set _ _⟩

/-- Objects that say the same give the same field. -/
theorem Gives.of_agree (hgives : Gives ms f) (h : Agree ms ms') : Gives ms' f := by
  obtain ⟨shaped, hshaped, hread⟩ := hgives
  obtain ⟨shaped', hshaped', hagree⟩ := normalize_of_agree h hshaped
  exact ⟨shaped', hshaped', Field.read_eq_accepted.2
    ((Field.read_eq_accepted.1 hread).of_agree hagree)⟩

/-! ## Names and marks -/

/-- Whether the key of a property gives its field a name: a text gives itself, bytes the text that
they encode, and null no name. -/
inductive Names : Value → Option String → Prop
  | text (s : String) : Names (.str s) (some s)
  | bytes {bs : List UInt8} {s : String} (encoded : Text.decodeUtf8? bs = some s) :
      Names (.bytes bs) (some s)
  | null : Names .null none

variable {required key property property' : Value} {name : Option String}

theorem names_of_nullable (h : Record.nullable Record.text key = .accepted name) :
    Names key name := by
  cases key with
  | null => cases h; exact .null
  | str s => cases h; exact .text s
  | bytes bs =>
      obtain ⟨s, hs, rfl⟩ := Record.Checked.map_eq_accepted h
      rw [Record.text] at hs
      split at hs
      · next hencoded => cases hs; exact .bytes hencoded
      · cases hs
  | _ => cases h

/-- A key that gives a name is the same key as itself only. -/
theorem Names.sameKey_iff (h : Names key name) (v : Value) : key.sameKey v = true ↔ key = v := by
  cases h <;> cases v <;> simp [Value.sameKey]

/-- What a field has of the key of its property, in a schema with these required names: its name,
and a mark that says whether the key is among them. Where there is no list, there is no mark. -/
structure Mirrors (required key : Value) (f : Field) : Prop where
  name : Names key f.name
  marked : ∀ names, required = .list names → ∃ b, f.required = some b ∧ (b = true ↔ key ∈ names)
  unmarked : (∀ names, required ≠ .list names) → f.required = none

/-- A mark that is no truth value is left out. -/
theorem find?_normalize_required (h : normalize ms = .ok ms')
    (hmark : ∀ b, Members.find? ms "required" ≠ some (.bool b)) :
    Members.find? ms' "required" = none := by
  rw [normalize] at h
  obtain ⟨shaped, hshaped, h⟩ := bind_eq_ok.1 h
  obtain ⟨short, hshort, hend⟩ := bind_eq_ok.1 hshaped
  cases hend
  obtain ⟨items, _, h⟩ := bind_eq_ok.1 h
  have hsame : Members.find? (chooseType (replaceBinary short)) "required" =
      Members.find? ms "required" := by
    rw [find?_chooseType (by decide), find?_replaceBinary (by decide),
      find?_shortenRef hshort (by decide)]
  have hnone : Members.find? (dropRequired (chooseType (replaceBinary short))) "required" =
      none := by
    unfold dropRequired
    split
    · next hnone => exact hnone
    · next b hb => exact absurd (hsame ▸ hb) (hmark b)
    · exact Members.find?_erase_self _ _
  cases items with
  | none => cases h; exact hnone
  | some items => cases h; exact (Members.find?_set_of_ne (by decide) _ _).trans hnone

theorem mirrors_of_fieldOf (h : fieldOf required (key, property) = .ok f) :
    Mirrors required key f := by
  obtain ⟨hname, hmarked⟩ := fieldOf_ok h
  have hname := names_of_nullable hname
  refine ⟨hname, ?_, fun hother => ?_⟩
  · rintro names rfl
    refine ⟨_, hmarked _ rfl, ?_⟩
    simp only [List.any_eq_true, hname.sameKey_iff, exists_eq_right']
  · obtain ⟨shaped, hshaped, hread⟩ := fieldOf_eq_ok.1 h
    have hmark : requiredMark required key = .null := by
      unfold requiredMark
      split
      · next names => exact absurd rfl (hother names)
      · rfl
    have hnone : Members.find? shaped "required" = none := by
      refine find?_normalize_required hshaped fun b => ?_
      rw [find?_draft_required, hmark]
      simp
    have hrequired := (Field.read_eq_accepted.1 hread).required
    unfold Record.optional Record.spelled Record.spelled at hrequired
    rw [hnone] at hrequired
    exact (Record.Checked.accepted.inj hrequired).symm

/-! ## One property -/

/-- Whether two properties say the same, but for what they say of their names and of their being
required. What is no mapping says nothing. -/
def SaySame (property property' : Value) : Prop :=
  ∀ key, key ∉ ["name", "required"] →
    Members.find? property.membersOrNil key = Members.find? property'.membersOrNil key

theorem agree_draft (h : SaySame property property') (required key : Value) :
    Agree (draft required key property) (draft required key property') := by
  intro other
  by_cases hrequired : other = "required"
  · rw [hrequired, find?_draft_required, find?_draft_required]
  by_cases hname : other = "name"
  · rw [hname, find?_draft_name, find?_draft_name]
  · have hother : other ∉ ["name", "required"] := by simp [hname, hrequired]
    rw [find?_draft_of_notMem hother, find?_draft_of_notMem hother, h other hother]

/-- What a property says of its own name and of its being required does not count. -/
theorem fieldOf_of_saySame (hfield : fieldOf required (key, property) = .ok f)
    (h : SaySame property property') : fieldOf required (key, property') = .ok f :=
  fieldOf_eq_ok.2 ((fieldOf_eq_ok.1 hfield).of_agree (agree_draft h required key))

/-- A schema with one property for all of its properties. -/
def withOnly (schema : Members) (property : Value × Value) : Members :=
  Members.set schema "properties" (.ofMembers [property])

variable {schema : Members} {cell : Option Nat} {title : Value} {model : Model}

theorem fieldsIn_withOnly (h : fieldOf (Members.find schema "required") (key, property) = .ok f) :
    fieldsIn (withOnly schema (key, property)) = .ok [f] := by
  have hproperties : Members.find (withOnly schema (key, property)) "properties" =
      .ofMembers [(key, property)] :=
    Members.find_of_find? (Members.find?_set_self schema "properties" _)
  rw [fieldsIn, hproperties, withOnly, Members.find_set_of_ne (by decide)]
  exact bind_eq_ok.2 ⟨_, rfl, bind_eq_ok.2 ⟨f, h, bind_eq_ok.2 ⟨[], rfl, rfl⟩⟩⟩

/-- The model of a schema with one property is that of the whole schema, but for the other
fields. -/
theorem toModel_withOnly (hmodel : toModel title (.map cell schema) = .ok model)
    (h : fieldOf (Members.find schema "required") (key, property) = .ok f) :
    toModel title (.map cell (withOnly schema (key, property))) =
      .ok { model with fields := [f] } := by
  obtain ⟨_, _, hmap, hname, hdescription, -⟩ := exists_schema_of_toModel hmodel
  cases hmap
  refine toModel_of_named hname (fieldsIn_withOnly h) ?_
  rw [withOnly, Members.find_set_of_ne (by decide)]
  exact hdescription

/-! ## All properties -/

/-- Each property has one field, in order, which mirrors its key. It is the field that the property
would have alone, also if it said anything else of its own name and of its being required. -/
theorem fields_mirror_properties (h : toModel title (.map cell schema) = .ok model) :
    List.Forall₂
      (fun p f =>
        Mirrors (Members.find schema "required") p.1 f ∧
        toModel title (.map cell (withOnly schema p)) = .ok { model with fields := [f] } ∧
        ∀ property, SaySame p.2 property →
          toModel title (.map cell (withOnly schema (p.1, property))) =
            .ok { model with fields := [f] })
      (Members.find schema "properties").membersOrNil model.fields := by
  obtain ⟨_, _, hmap, -, -, hfields⟩ := exists_schema_of_toModel h
  cases hmap
  obtain ⟨properties, hproperties, hfields⟩ := bind_eq_ok.1 hfields
  rw [← Value.eq_membersOrNil hproperties]
  refine (fieldsOf_ok hfields).imp fun p f hf => ⟨mirrors_of_fieldOf hf, toModel_withOnly h hf,
    fun property hsame => toModel_withOnly h (fieldOf_of_saySame hf hsame)⟩

/-- A schema whose properties speak of their own names and marks, among them one of binary content,
one with elements and one that is no mapping. -/
def labelledSchema : Members :=
  [(.str "required", .list [.str "id", .str "gone"]),
   (.str "properties", .ofMembers
     [(.str "id", .ofMembers [(.str "name", .str "other"), (.str "type", .str "string"),
        (.str "required", .bool false)]),
      (.str "file", .ofMembers [(.str "type", .str "file"), (.str "required", .list [.str "id"])]),
      (.str "tags", .ofMembers [(.str "items", .ofMembers [(.str "$ref", .str "#/tags/Tag")])]),
      (.str "any", .bool true)])]

/-- A field with a name and a mark, and besides a type and a reference at most. -/
def labelled (name : String) (required : Bool) (type ref : Option String) (items : Option Field) :
    Field :=
  ⟨some name, type, ref, none, none, none, none, items, none, none, none, some required⟩

def labelledModel : Model :=
  ⟨"Thing", none,
    [labelled "id" true (some "string") none none,
     labelled "file" false none (some "Attachment") none,
     labelled "tags" false none none
       (some ⟨none, none, some "Tag", none, none, none, none, none, none, none, none, none⟩),
     labelled "any" false none none none]⟩

theorem fields_mirror_properties_of_labelled :
    toModel (.str "Thing") (.map none labelledSchema) = .ok labelledModel ∧
      Mirrors (.list [.str "id", .str "gone"]) (.str "id")
        (labelled "id" true (some "string") none none) ∧
      toModel (.str "Thing") (.ofMembers
          [(.str "required", .list [.str "id", .str "gone"]),
           (.str "properties", .ofMembers [(.str "id", .ofMembers
             [(.str "required", .list []), (.str "type", .str "string")])])]) =
        .ok { labelledModel with fields := [labelled "id" true (some "string") none none] } := by
  have hmodel : toModel (.str "Thing") (.map none labelledSchema) = .ok labelledModel := by cbv
  have hfields := fields_mirror_properties hmodel
  obtain ⟨⟨hmirrors, -, halone⟩, -⟩ := List.forall₂_cons.1 hfields
  refine ⟨hmodel, hmirrors, halone _ fun key hkey => ?_⟩
  simp only [List.mem_cons, List.not_mem_nil, or_false, not_or] at hkey
  simp [Value.membersOrNil, Members.find?_cons, Value.sameKey, Ne.symm hkey.1, Ne.symm hkey.2]

end Schema

end ApiOutline
