import ApiOutline.Outline
import ApiOutline.Proofs.Field
import ApiOutline.Proofs.Record.Form
import ApiOutline.Proofs.Value.Plain

/-!
# Records that can be read back

An outline is published record by record, down to the fields of the models. A
record that is read again is the same record if the free values in it are plain:
the choices, the example and the default of a field, and the response schema of
an operation. Null as an example or as a default would be taken for no value, so
there must be none; everywhere else inside a free value it stays.
-/

namespace ApiOutline

open Record (Checked published)
open Value (plain_of_isPlain plainList_of_forall)

namespace Field

/-- Whether the free values of a field are plain, at every depth. -/
inductive IsPlain : Field → Prop
  | intro {f : Field} (enum : ∀ items, f.enum = some items → ∀ v ∈ items, v.IsPlain)
      (sample : ∀ v, f.sample = some v → v.IsPlain ∧ v ≠ .null)
      (default : ∀ v, f.default = some v → v.IsPlain ∧ v ≠ .null)
      (items : ∀ g, f.items = some g → IsPlain g) : IsPlain f

theorem isPlain_plain {name type description : String} {sample : Option Value}
    {required : Option Bool} (h : ∀ v, sample = some v → v.IsPlain ∧ v ≠ .null) :
    (plain name type description sample required).IsPlain :=
  .intro (fun _ hnone => by cases hnone) h (fun _ hnone => by cases hnone)
    fun _ hnone => by cases hnone

theorem IsPlain.free {f : Field} {v : Value} (h : f.IsPlain) (hfree : f.HasFree v) :
    v.IsPlain := by
  induction hfree with
  | choice hchoices hv => cases h with | intro henum _ _ _ => exact henum _ hchoices _ hv
  | sample hv => cases h with | intro _ hsample _ _ => exact (hsample _ hv).1
  | default hv => cases h with | intro _ _ hdefault _ => exact (hdefault _ hv).1
  | elements hitems _ ih => cases h with | intro _ _ _ hinner => exact ih (hinner _ hitems)

/-- The parts that a field is written with, its elements written before. -/
def entries (f : Field) (items : Option Value) : List Record.Entry :=
  [.same "name" (f.name.map .str), .same "type" (f.type.map .str), ⟨"$ref", "ref", f.ref.map .str⟩,
    .same "description" (f.description.map .str), .same "enum" (f.enum.map .list),
    .same "example" f.sample, .same "format" (f.format.map .str), .same "items" items,
    .same "default" f.default, .same "minimum" (f.minimum.map Record.Number.value),
    .same "maximum" (f.maximum.map Record.Number.value), .same "required" (f.required.map .bool)]

/-- The names that a field is published with. -/
def names : List String :=
  ["name", "type", "$ref", "description", "enum", "example", "format", "items", "default",
    "minimum", "maximum", "required"]

theorem find?_entries (f : Field) (items : Option Value) :
    ∀ e ∈ f.entries items, Members.find? (published (f.entries items)) e.published = e.value :=
  Record.find?_published _ names rfl (by decide)

theorem plainOption_of_isPlain {x : Option Value} (h : ∀ v, x = some v → v.IsPlain ∧ v ≠ .null) :
    Record.plainOption x = some x := by
  cases x with
  | none => rfl
  | some v => rw [Record.plainOption, plain_of_isPlain (h v rfl).1, Option.map_some]

theorem write_of_isPlain {f : Field} (items : Option Value) (h : f.IsPlain)
    (hitems : writeItems .published f.items = some items) :
    f.write .published = some (.ofMembers (published (f.entries items))) := by
  cases h with
  | intro henum hsample hdefault _ =>
      have hchoices : f.enum.elim (some []) Value.plainList = some (f.enum.getD []) := by
        cases hfound : f.enum with
        | none => rfl
        | some choices =>
            exact plainList_of_forall fun v hv => plain_of_isPlain (henum choices hfound v hv)
      have hlist : (f.enum.map fun _ => Value.list (f.enum.getD [])) = f.enum.map .list := by
        cases f.enum <;> rfl
      cases f
      rw [write, hchoices, plainOption_of_isPlain hsample, hitems, plainOption_of_isPlain hdefault]
      simp only [hlist]
      rfl

theorem nullable_anything {v : Value} (h : v ≠ .null) :
    Record.nullable Record.anything v = .accepted (some v) := by
  cases v with
  | null => exact absurd rfl h
  | _ => rfl

theorem nullable_number (n : Record.Number) :
    Record.nullable Record.number n.value = .accepted (some n) := by
  cases n <;> rfl

/-- What is published of a field is read as that field. -/
theorem isReadFrom_published {f : Field} {items : Option Value} (h : f.IsPlain)
    (hitems : (readItems (published (f.entries items))).under (.member "items") =
      .accepted f.items) : IsReadFrom (published (f.entries items)) f := by
  have hfind := find?_entries f items
  have href : Members.find? (published (f.entries items)) "ref" = none :=
    Record.find?_published_of_notMem names rfl (by decide)
  generalize published (f.entries items) = ms at hfind href hitems ⊢
  simp only [entries, Record.Entry.same, List.forall_mem_cons] at hfind
  obtain ⟨hname, htype, hrefs, hdescription, henum, hsample, hformat, -, hdefault, hminimum,
    hmaximum, hrequired, -⟩ := hfind
  have hnone : ∀ n ∈ ([] : List String), Members.find? ms n = none := by simp
  cases h with
  | intro _ hsampleValue hdefaultValue _ =>
      exact
        { name := Record.optionalText_readBack hname hnone
          type := Record.optionalText_readBack htype hnone
          ref := Record.optionalText_readBack hrefs (by simp [href])
          description := Record.optionalText_readBack hdescription hnone
          enum := Record.optional_readBack _ .list henum hnone fun choices _ =>
            congrArg (some <$> ·) (Record.values_readBack choices)
          sample := Record.optional_readBack _ id (by rw [hsample, Option.map_id]; rfl) hnone
            fun v hv => nullable_anything (hsampleValue v hv).2
          format := Record.optionalText_readBack hformat hnone
          items := hitems
          default := Record.optional_readBack _ id (by rw [hdefault, Option.map_id]; rfl) hnone
            fun v hv => nullable_anything (hdefaultValue v hv).2
          minimum := Record.optional_readBack _ _ hminimum hnone fun n _ => nullable_number n
          maximum := Record.optional_readBack _ _ hmaximum hnone fun n _ => nullable_number n
          required := Record.optionalTruth_readBack hrequired hnone }

theorem find?_items (f : Field) (items : Option Value) :
    Members.find? (published (f.entries items)) "items" = items :=
  find?_entries f items (.same "items" items) (by simp [entries])

/-- A field with plain values can be written, and is read back. -/
theorem readBack {f : Field} (h : f.IsPlain) :
    ∃ ms, f.write .published = some (.ofMembers ms) ∧ read (.ofMembers ms) = .accepted f := by
  induction h with
  | @intro f henum hsample hdefault hinner ih =>
      have hplain : f.IsPlain := .intro henum hsample hdefault hinner
      cases hitems : f.items with
      | none =>
          refine ⟨_, write_of_isPlain none hplain (by rw [hitems]; rfl), ?_⟩
          refine read_eq_accepted.2 (isReadFrom_published hplain ?_)
          rw [readItems_eq, find?_items, hitems]
          rfl
      | some g =>
          obtain ⟨ms, hwrite, hread⟩ := ih g hitems
          refine ⟨_, write_of_isPlain (some (.ofMembers ms)) hplain ?_, ?_⟩
          · rw [hitems, writeItems, hwrite]
          · refine read_eq_accepted.2 (isReadFrom_published hplain ?_)
            rw [readItems_eq, find?_items, hitems]
            simp only [hread]
            rfl

end Field

/-! ## Models -/

namespace Model

variable {m : Model}

/-- Whether the free values of a model's fields are plain. -/
def IsPlain (m : Model) : Prop := ∀ f ∈ m.fields, f.IsPlain

/-- The parts that a model is written with, its fields written before. -/
def entries (m : Model) (fields : List Value) : List Record.Entry :=
  [.same "name" (some (.str m.name)), .same "description" (m.description.map .str),
    .same "fields" (some (.list fields))]

theorem readBack (h : m.IsPlain) :
    ∃ v, m.write .published = some v ∧ read v = .accepted m := by
  obtain ⟨fields, hfields, hread⟩ := Record.mapM_readBack Field.read fun f hf =>
    let ⟨ms, hwrite, hread⟩ := Field.readBack (h f hf)
    ⟨_, hwrite, hread⟩
  have hfind := Record.find?_published (m.entries fields) ["name", "description", "fields"] rfl
    (by decide)
  refine ⟨.ofMembers (published (m.entries fields)), by rw [write, hfields]; rfl, ?_⟩
  generalize published (m.entries fields) = ms at hfind ⊢
  simp only [entries, Record.Entry.same, List.forall_mem_cons] at hfind
  obtain ⟨hname, hdescription, hlist, -⟩ := hfind
  have hnone : ∀ n ∈ ([] : List String), Members.find? ms n = none := by simp
  have h1 := Checked.map_accepted_of mk (Record.requiredText_readBack [] hname)
  have h2 := Checked.both_accepted h1 (Record.optionalText_readBack hdescription hnone)
  exact Checked.both_accepted h2
    (Record.optional_of_find?_some (Record.listOf Field.read) [] [] hlist (hread 0))

end Model

/-! ## Operations -/

namespace Operation

variable {op : Operation}

/-- Whether the response schema of an operation is plain. -/
def IsPlain (op : Operation) : Prop :=
  ∀ ms, op.responseSchema = some ms → (Value.ofMembers (Record.members ms)).IsPlain

def entries (op : Operation) : List Record.Entry :=
  [.same "endpoint" (some (.str op.endpoint)), .same "method" (some (.str op.method)),
    .same "role" (some (.str op.role)), ⟨"operationId", "operation_id", some (.str op.operationId)⟩,
    .same "tags" (op.tags.map Record.texts), .same "description" (op.description.map .str),
    .same "summary" (op.summary.map .str),
    ⟨"rateLimitGroup", "rate_limit_group", op.rateLimitGroup.map .str⟩,
    ⟨"appPermission", "app_permission", op.appPermission.map .str⟩,
    ⟨"userPermission", "user_permission", op.userPermission.map .str⟩,
    ⟨"withParameter", "with_parameter", some (.bool op.withParameter)⟩,
    ⟨"responseSchema", "response_schema",
      op.responseSchema.map fun ms => .ofMembers (Record.members ms)⟩,
    ⟨"queryParameters", "query_parameters", op.queryParameters.map .str⟩,
    ⟨"bodyParameters", "body_parameters", op.bodyParameters.map .str⟩,
    ⟨"formUrlEncoded", "form_url_encoded", op.formUrlEncoded.map .bool⟩,
    .same "multipart" (op.multipart.map .bool)]

/-- The names that an operation is published with. -/
def names : List String :=
  ["endpoint", "method", "role", "operationId", "tags", "description", "summary", "rateLimitGroup",
    "appPermission", "userPermission", "withParameter", "responseSchema", "queryParameters",
    "bodyParameters", "formUrlEncoded", "multipart"]

theorem write_of_isPlain (h : op.IsPlain) :
    op.write .published = some (.ofMembers (published op.entries)) := by
  have hschema :
      Record.plainOption (op.responseSchema.map fun ms => .ofMembers (Record.members ms)) =
      some (op.responseSchema.map fun ms => .ofMembers (Record.members ms)) := by
    cases hfound : op.responseSchema with
    | none => rfl
    | some ms => rw [Option.map_some, Record.plainOption, plain_of_isPlain (h ms hfound)]; rfl
  rw [write, hschema]
  rfl

theorem readBack (h : op.IsPlain) :
    ∃ v, op.write .published = some v ∧ read v = .accepted op := by
  have hfind := Record.find?_published op.entries names rfl (by decide)
  have hother : ∀ name, name ∉ names →
      ∀ n ∈ [name], Members.find? (published op.entries) n = none := by
    intro name hname n hn
    cases List.mem_singleton.1 hn
    exact Record.find?_published_of_notMem names rfl hname
  refine ⟨_, write_of_isPlain h, ?_⟩
  generalize published op.entries = ms at hfind hother ⊢
  simp only [entries, Record.Entry.same, List.forall_mem_cons] at hfind
  obtain ⟨hendpoint, hmethod, hrole, hid, htags, hdescription, hsummary, hgroup, happ, huser,
    hparameter, hschema, hquery, hbody, hform, hmultipart, -⟩ := hfind
  have hnone : ∀ n ∈ ([] : List String), Members.find? ms n = none := by simp
  have h1 := Checked.map_accepted_of mk (Record.requiredText_readBack [] hendpoint)
  have h2 := Checked.both_accepted h1 (Record.requiredText_readBack [] hmethod)
  have h3 := Checked.both_accepted h2 (Record.requiredText_readBack [] hrole)
  have h4 := Checked.both_accepted h3 (Record.requiredText_readBack ["operation_id"] hid)
  have h5 := Checked.both_accepted h4
    (Record.optional_readBack (Record.listOf Record.text) Record.texts htags hnone fun tags _ =>
      congrArg (some <$> ·) (Record.texts_readBack tags))
  have h6 := Checked.both_accepted h5 (Record.optionalText_readBack hdescription hnone)
  have h7 := Checked.both_accepted h6 (Record.optionalText_readBack hsummary hnone)
  have h8 := Checked.both_accepted h7
    (Record.optionalText_readBack hgroup (hother "rate_limit_group" (by decide)))
  have h9 := Checked.both_accepted h8
    (Record.optionalText_readBack happ (hother "app_permission" (by decide)))
  have h10 := Checked.both_accepted h9
    (Record.optionalText_readBack huser (hother "user_permission" (by decide)))
  have h11 := Checked.both_accepted h10
    (Record.optional_of_find?_some Record.truth ["with_parameter"] false hparameter rfl)
  have h12 := Checked.both_accepted h11 (Record.optional_readBack
    (Record.mappingOf Record.anything) (fun schema => .ofMembers (Record.members schema)) hschema
    (hother "response_schema" (by decide)) fun schema _ =>
      congrArg (some <$> ·) (Record.members_readBack schema))
  have h13 := Checked.both_accepted h12
    (Record.optionalText_readBack hquery (hother "query_parameters" (by decide)))
  have h14 := Checked.both_accepted h13
    (Record.optionalText_readBack hbody (hother "body_parameters" (by decide)))
  have h15 := Checked.both_accepted h14
    (Record.optionalTruth_readBack hform (hother "form_url_encoded" (by decide)))
  exact Checked.both_accepted h15 (Record.optionalTruth_readBack hmultipart hnone)

end Operation

/-! ## Nodes and outlines -/

namespace Node

variable {n : Node}

def entries (n : Node) (operations : List Value) : List Record.Entry :=
  [.same "paths" (some (Record.texts n.segments)), .same "parameter" (n.parameter.map .str),
    ⟨"defaultParameter", "default_parameter", n.defaultParameter.map .str⟩,
    .same "operations" (some (.list operations)), .same "endpoint" (n.endpoint.map .str)]

/-- The names that a node is published with. -/
def names : List String := ["paths", "parameter", "defaultParameter", "operations", "endpoint"]

theorem readBack (h : ∀ op ∈ n.operations, op.IsPlain) :
    ∃ v, n.write .published = some v ∧ read v = .accepted n := by
  obtain ⟨operations, hoperations, hread⟩ := Record.mapM_readBack Operation.read
    fun op hop => Operation.readBack (h op hop)
  have hfind := Record.find?_published (n.entries operations) names rfl (by decide)
  have hother : ∀ name ∈ ["default_parameter"],
      Members.find? (published (n.entries operations)) name = none :=
    List.forall_mem_singleton.2 (Record.find?_published_of_notMem names rfl (by decide))
  refine ⟨.ofMembers (published (n.entries operations)), by rw [write, hoperations]; rfl, ?_⟩
  generalize published (n.entries operations) = ms at hfind hother ⊢
  simp only [entries, Record.Entry.same, List.forall_mem_cons] at hfind
  obtain ⟨hpaths, hparameter, hdefault, hlist, hendpoint, -⟩ := hfind
  have hnone : ∀ n ∈ ([] : List String), Members.find? ms n = none := by simp
  have h1 := Checked.map_accepted_of mk (Record.required_of_find? (Record.tupleOf Record.text) []
    hpaths (Record.texts_readBack n.segments))
  have h2 := Checked.both_accepted h1 (Record.optionalText_readBack hparameter hnone)
  have h3 := Checked.both_accepted h2 (Record.optionalText_readBack hdefault hother)
  have h4 := Checked.both_accepted h3
    (Record.optional_of_find?_some (Record.tupleOf Operation.read) [] [] hlist (hread 0))
  exact Checked.both_accepted h4 (Record.optionalText_readBack hendpoint hnone)

end Node

namespace Outline

variable {o : Outline}

def entries (models nodes : List Value) : List Record.Entry :=
  [.same "models" (some (.list models)), .same "paths" (some (.list nodes))]

/-- An outline with plain values can be written, and is read back. -/
theorem readBack (hmodels : ∀ m ∈ o.models, m.IsPlain)
    (hoperations : ∀ n ∈ o.nodes, ∀ op ∈ n.operations, op.IsPlain) :
    ∃ v, o.write .published = some v ∧ read v = .accepted o := by
  obtain ⟨models, hwriteModels, hreadModels⟩ := Record.mapM_readBack Model.read
    fun m hm => Model.readBack (hmodels m hm)
  obtain ⟨nodes, hwriteNodes, hreadNodes⟩ := Record.mapM_readBack Node.read
    fun n hn => Node.readBack (hoperations n hn)
  have hfind := Record.find?_published (entries models nodes) ["models", "paths"] rfl (by decide)
  refine ⟨.ofMembers (published (entries models nodes)),
    by rw [write, hwriteModels, hwriteNodes]; rfl, ?_⟩
  generalize published (entries models nodes) = ms at hfind ⊢
  simp only [entries, Record.Entry.same, List.forall_mem_cons] at hfind
  obtain ⟨hfirst, hsecond, -⟩ := hfind
  have h1 := Checked.map_accepted_of mk
    (Record.optional_of_find?_some (Record.listOf Model.read) [] [] hfirst (hreadModels 0))
  exact Checked.both_accepted h1
    (Record.optional_of_find?_some (Record.listOf Node.read) [] [] hsecond (hreadNodes 0))

end Outline

end ApiOutline
