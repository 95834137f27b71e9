import ApiOutline.Proofs.Schema.Origin
import Mathlib.Data.List.Permutation

/-!
# Binary content

Binary content becomes a reference to the attachment model. Whether an object
is binary is asked before one of several types is chosen, so an object that
lists its types hides binary content (`hidesBinary`): its field keeps the type
and the format. This is the only way for a binary field to survive
(`isBinary_of_shows`), at every depth of `items` and whichever part of the
document the field comes from.
-/

namespace ApiOutline

/-- Whether a type and a format are those of binary content. -/
def areBinary (type format : Option String) : Bool :=
  type == some "file" || (type == some "string" && format == some "binary")

namespace Field

def isBinary (f : Field) : Bool := areBinary f.type f.format

end Field

namespace Schema

variable {document : Value} {ms : List Model} {model : Model} {object inner : Members}
  {f g : Field}

/-- The text that a value is read as, if it is read as one. -/
def textOf? (v : Value) : Option String :=
  match Record.text v with
  | .accepted s => some s
  | .refused _ => none

/-- Whether the type that is kept of an object, and its format, are those of binary content. -/
def denotesBinary (object : Members) : Bool :=
  areBinary (textOf? (keptType (Members.find object "type")))
    (textOf? (Members.find object "format"))

/-- Whether an object denotes binary content and is not recognised. -/
def hidesBinary (object : Members) : Bool := denotesBinary object && !isBinary object

theorem textOf?_eq {v : Value} {x : Option String}
    (h : Record.nullable Record.text v = .accepted x) : textOf? v = x := by
  have hsome : ∀ {v : Value}, some <$> Record.text v = .accepted x → textOf? v = x := by
    intro v h
    obtain ⟨s, hs, rfl⟩ := Record.Checked.map_eq_accepted h
    rw [textOf?, hs]
  cases v with
  | null => cases h; rfl
  | _ => exact hsome h

/-- A binary field shows an object that hides binary content. -/
theorem isBinary_of_shows (h : Shows object f) : f.isBinary = hidesBinary object := by
  cases hbinary : isBinary object with
  | true =>
      obtain ⟨-, htype, -⟩ := h.binary hbinary
      rw [Field.isBinary, htype, hidesBinary, hbinary, Bool.not_true, Bool.and_false]
      rfl
  | false =>
      rw [hidesBinary, hbinary, Bool.not_false, Bool.and_true, denotesBinary,
        textOf?_eq (h.type hbinary), textOf?_eq (h.format hbinary)]
      rfl

theorem ref_of_shows (h : Shows object f) (hdenotes : denotesBinary object = true)
    (hplain : hidesBinary object = false) :
    f.ref = some attachmentName ∧ f.type = none ∧ f.format = none := by
  rw [hidesBinary, hdenotes, Bool.true_and, Bool.not_eq_false'] at hplain
  exact h.binary hplain

theorem isBinary_of_mem_attachment (hf : f ∈ Model.attachment.fields) (hwithin : f.Within g) :
    g.isBinary = false := by
  have hplain : ∀ f ∈ Model.attachment.fields, f.isBinary = false := by decide +kernel
  rw [hwithin.eq_of_mem_attachment hf]
  exact hplain f hf

/-- A field is binary exactly if the object beneath it hides binary content. -/
theorem isBinary_iff_hidesBinary (h : (models document).result = .ok ms) (hmodel : model ∈ ms)
    (hf : f ∈ model.fields) (hwithin : f.Within g) :
    model = Model.attachment ∨
      ∃ key object inner, IsPropertyOf document model.name key object ∧
        Record.nullable Record.text key = .accepted f.name ∧ Beneath object f inner g ∧
        Shows inner g ∧ g.isBinary = hidesBinary inner := by
  refine (isDepicted_of_mem h hmodel hf).imp_right ?_
  rintro ⟨key, object, hproperty, hname, hdepicts⟩
  obtain ⟨inner, hbeneath, hshows⟩ := exists_beneath hdepicts hwithin
  exact ⟨key, object, inner, hproperty, hname, hbeneath, hshows, isBinary_of_shows hshows⟩

/-- Where no object hides binary content no field is binary, and what stands for binary content
refers to attachments. -/
theorem no_binary_field_unless_hidden (h : (models document).result = .ok ms)
    (hplain : ∀ object, IsObjectOf document object → hidesBinary object = false)
    (hmodel : model ∈ ms) (hf : f ∈ model.fields) (hwithin : f.Within g) :
    g.isBinary = false ∧ (model = Model.attachment ∨
      ∃ key object inner, IsPropertyOf document model.name key object ∧
        Record.nullable Record.text key = .accepted f.name ∧ Beneath object f inner g ∧
        (denotesBinary inner = true →
          g.ref = some attachmentName ∧ g.type = none ∧ g.format = none)) := by
  rcases isBinary_iff_hidesBinary h hmodel hf hwithin with
    rfl | ⟨key, object, inner, hproperty, hname, hbeneath, hshows, hbinary⟩
  · exact ⟨isBinary_of_mem_attachment hf hwithin, Or.inl rfl⟩
  · have hinner := hplain inner ((IsObjectOf.property hproperty).beneath hbeneath)
    exact ⟨hbinary.trans hinner, Or.inr ⟨key, object, inner, hproperty, hname, hbeneath,
      fun hdenotes => ref_of_shows hshows hdenotes hinner⟩⟩

/-! ## A list of files, and a file that may be null -/

/-- A document with one named schema, and that with one property. -/
def uploadDocument (object : Members) : Value :=
  .ofMembers [(.str "components", .ofMembers [(.str "schemas", .ofMembers
    [(.str "Upload", .ofMembers [(.str "properties", .ofMembers
      [(.str "file", .ofMembers object)])])])])]

def binaryObject : Members := [(.str "type", .str "string"), (.str "format", .str "binary")]

def listObject : Members := [(.str "type", .str "array"), (.str "items", .ofMembers binaryObject)]

def nullableObject : Members :=
  [(.str "type", .list [.str "string", .str "null"]), (.str "format", .str "binary")]

/-- A field with a name, a type and a format. -/
def typedField (name type format ref : Option String) (items : Option Field) : Field :=
  ⟨name, type, ref, none, none, none, format, items, none, none, none, none⟩

def elementField : Field := typedField none none none (some "Attachment") none

def listField : Field := typedField (some "file") (some "array") none none (some elementField)

def nullableField : Field := typedField (some "file") (some "string") (some "binary") none none

theorem models_list : (models (uploadDocument listObject)).result =
    .ok [⟨"Upload", none, [listField]⟩, .attachment] := by
  cbv

theorem models_nullable : (models (uploadDocument nullableObject)).result =
    .ok [⟨"Upload", none, [nullableField]⟩, .attachment] := by
  cbv

/-- A type that is written as a list is chosen after binary content was looked for. -/
theorem file_of_two_types_stays_binary :
    ∃ ms, (models (uploadDocument nullableObject)).result = .ok ms ∧ ∃ model ∈ ms,
      ∃ f ∈ model.fields, f.type = some "string" ∧ f.format = some "binary" :=
  ⟨_, models_nullable, _, List.mem_cons_self, nullableField, List.mem_cons_self, rfl, rfl⟩

theorem mem_of_isObjectOf_list {object : Members}
    (h : IsObjectOf (uploadDocument listObject) object) :
    object ∈ [listObject, binaryObject, []] := by
  induction h with
  | property hproperty =>
      cases hproperty with
      | named isNamed _ isProperty =>
          cases List.mem_singleton.1 isNamed
          cases List.mem_singleton.1 isProperty
          exact List.mem_cons_self
      | form isSite => cases isSite
      | query isSite => cases isSite
      | description => simp
  | elements _ isItems ih =>
      rcases List.mem_cons.1 ih with rfl | ih
      · cases isItems
        simp
      rcases List.mem_cons.1 ih with rfl | ih
      · cases isItems
      · cases List.mem_singleton.1 ih
        cases isItems

theorem no_binary_field_unless_hidden_of_list :
    (models (uploadDocument listObject)).result = .ok [⟨"Upload", none, [listField]⟩, .attachment] ∧
    (∀ object, IsObjectOf (uploadDocument listObject) object → hidesBinary object = false) ∧
    listField.Within elementField ∧ elementField.isBinary = false ∧
    denotesBinary binaryObject = true ∧ elementField.ref = some attachmentName := by
  have hplain : ∀ object, IsObjectOf (uploadDocument listObject) object →
      hidesBinary object = false := by
    intro object h
    have hmem := mem_of_isObjectOf_list h
    simp only [List.mem_cons, List.not_mem_nil, or_false] at hmem
    rcases hmem with rfl | rfl | rfl <;> decide +kernel
  have hwithin : listField.Within elementField := .elements rfl (.self _)
  obtain ⟨hbinary, -⟩ := no_binary_field_unless_hidden models_list hplain List.mem_cons_self
    List.mem_cons_self hwithin
  exact ⟨models_list, hplain, hwithin, hbinary, by decide +kernel, rfl⟩

end Schema

end ApiOutline
