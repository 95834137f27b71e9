import Mathlib.Data.List.Permutation
import ApiOutline.Proofs.Bounds
import ApiOutline.Proofs.Command.Run
import ApiOutline.Proofs.Json.Valid
import ApiOutline.Proofs.Source
import ApiOutline.Proofs.Value.Equality

/-!
# What is printed of an outline

The text that is given out for an outline, on the output or in a file, is the
outline as it is published, with a line end. It is a text in the grammar of JSON
exactly if all bounds in the outline are finite.
-/

namespace ApiOutline

open ApiOutline.Action (IsCalm)

/-! ## What is shown -/

namespace Show

theorem Streams.output_append (xs ys : List Event) :
    (ofEvents false (xs ++ ys)).output =
      (ofEvents false xs).output ++ (ofEvents false ys).output := by
  simp only [ofEvents, List.map_append, String.join_append]

namespace Output

variable {α β : Type} {o : Output} {v : Value} {h : Host} {content : String}

/-- Whether an action has given out a text: into the file, if one is named, or else on the
output. -/
def Emits (o : Output) (content : String) (a : Acted α) : Prop :=
  match o.file with
  | some path => a.host.fileAt? (.ofText path) = .ok (some (Text.encodeUtf8 content))
  | none => (Streams.ofEvents false a.events).output = content

theorem jsonText_eq_ok {text : String} (h : o.jsonText v = .ok text) :
    text = Json.render ⟨o.indent.map Int.toNat, false⟩ v := by
  unfold jsonText at h
  split at h
  · cases h
    rfl
  · cases h

theorem Emits.bind_of_isCalm {x : Action α} {f : α → Action β} {a : α} (hx : IsCalm x)
    (hresult : (x h).result = .ok a) (hf : o.Emits content (f a (x h).host)) :
    o.Emits content ((x >>= f) h) := by
  rw [Action.bind_apply_of_ok hresult]
  unfold Emits at hf ⊢
  cases hfile : o.file with
  | some path =>
      rw [hfile] at hf
      exact hf
  | none =>
      rw [hfile] at hf
      simp only at hf ⊢
      rw [Streams.output_append, Command.output_eq_empty (hx h).silent, hf]
      rfl

theorem Emits.bind_pure {x : Action α} {a : α} {b : β} (hresult : (x h).result = .ok a)
    (hx : o.Emits content (x h)) : o.Emits content ((x >>= fun _ => pure b) h) := by
  rw [Action.bind_apply_of_ok hresult]
  unfold Emits at hx ⊢
  cases hfile : o.file with
  | some path =>
      rw [hfile] at hx
      exact hx
  | none =>
      rw [hfile] at hx
      show (Streams.ofEvents false ((x h).events ++ [])).output = content
      rw [List.append_nil]
      exact hx

/-- What is not drawn is shown as it is written. -/
theorem emits_json (hfile : o.file = none) (hformat : o.format ≠ .rich)
    (hresult : (o.json v h).result = .ok ()) :
    o.Emits (Json.render ⟨o.indent.map Int.toNat, false⟩ v ++ "\n") (o.json v h) := by
  obtain ⟨text, htext, -⟩ := Action.result_bind_eq_ok.1 hresult
  replace htext : o.jsonText v = .ok text := htext
  rw [Emits, hfile]
  unfold json
  rw [Action.bind_apply_of_eq (a := text) (by rw [htext]; rfl), ← jsonText_eq_ok htext]
  simp only [hfile, if_neg hformat]
  show String.join [text ++ "\n"] = text ++ "\n"
  rw [String.join_cons, String.join_nil, String.append_empty]

end Output

end Show

/-! ## Outlines -/

namespace Command

open Show (Output)

variable {s : Setting} {o : Output} {h : Host}

/-- An outline is given out as it is published, with a line end. -/
theorem emits_presentOutline {outline : Outline} (hformat : o.file = none → o.format ≠ .rich)
    (hresult : (presentOutline o outline h).result = .ok ()) :
    ∃ data, outline.publish depthLimit = .ok data ∧
      o.Emits (Json.render ⟨o.indent.map Int.toNat, false⟩ data ++ "\n")
        (presentOutline o outline h) := by
  cases hfile : o.file with
  | some path =>
      obtain ⟨data, hdata, ⟨text, htext, hheld⟩, -⟩ := hasFiled_presentOutline hfile hresult
      refine ⟨data, hdata, ?_⟩
      rw [Output.Emits, hfile, ← Output.jsonText_eq_ok htext]
      exact hheld
  | none =>
      unfold presentOutline at hresult ⊢
      obtain ⟨data, hdata, hrest⟩ := Action.result_bind_eq_ok.1 hresult
      obtain ⟨_, hjson, -⟩ := Action.result_bind_eq_ok.1 hrest
      refine ⟨data, hdata, .bind_of_isCalm (Action.isCalm_ofExcept _) hdata ?_⟩
      simp only [hfile]
      exact .bind_pure hjson (Output.emits_json hfile (hformat hfile) hjson)

/-- What is given out for a document is its outline, as it is published. -/
theorem emits_perform_parse {source : String} {granted : Bool}
    (hformat : s.output.file = none → s.output.format ≠ .rich)
    (hresult : (s.perform (.parse source) h).result = .ok granted) :
    ∃ outline data, (s.outlineOf source h).result = .ok outline ∧
      outline.write .published = some data ∧
      s.output.Emits (Json.render ⟨s.output.indent.map Int.toNat, false⟩ data ++ "\n")
        (s.perform (.parse source) h) := by
  obtain ⟨outline, houtline, hrest⟩ := Action.result_bind_eq_ok.1 hresult
  obtain ⟨_, hpresent, -⟩ := Action.result_bind_eq_ok.1 hrest
  obtain ⟨data, hdata, hemits⟩ := emits_presentOutline hformat hpresent
  exact ⟨outline, data, houtline, (publish_eq_ok.1 hdata).2,
    .bind_of_isCalm (s.isCalm_outlineOf source) houtline (.bind_pure hpresent hemits)⟩

theorem isText_render_iff (style : Json.Style) (v : Value) :
    Json.Grammar.IsText (Json.render style v ++ "\n").toList ↔ v.isFinite = true := by
  rw [String.toList_append, Json.render, String.toList_ofList]
  exact Json.isText_write_iff (List.forall_mem_singleton.2 (by decide))

/-- The text that is given out for a document is a text in JSON exactly if all bounds in its outline
are finite. -/
theorem emitted_text_is_json_iff {s : Setting} {source : String} {h : Host} {granted : Bool}
    (hformat : s.output.file = none → s.output.format ≠ .rich)
    (hresult : (s.perform (.parse source) h).result = .ok granted) :
    ∃ outline data content, (s.outlineOf source h).result = .ok outline ∧
      outline.write .published = some data ∧
      content = Json.render ⟨s.output.indent.map Int.toNat, false⟩ data ++ "\n" ∧
      s.output.Emits content (s.perform (.parse source) h) ∧
      (Json.Grammar.IsText content.toList ↔ outline.HasFiniteBounds) := by
  obtain ⟨outline, data, houtline, hdata, hemits⟩ := emits_perform_parse hformat hresult
  exact ⟨outline, data, _, houtline, hdata, rfl, hemits,
    (isText_render_iff _ _).trans (Outline.isFinite_write hdata)⟩

/-! ## A range with a lower bound -/

/-- A document in which a number has some text for its lower bound. -/
def rangeText (bound : String) : String :=
  "\x7b\"openapi\": \"3.0.0\", \"components\": \x7b\"schemas\": \x7b\"Range\": " ++
    "\x7b\"properties\": \x7b\"low\": \x7b\"type\": \"number\", \"minimum\": " ++ bound ++
    "\x7d\x7d\x7d\x7d\x7d\x7d"

/-- A host with the document on its input. -/
def rangeHost (bound : String) : Host :=
  { SettingsFile.freshHost with input := Text.encodeUtf8 (rangeText bound) }

/-- The document, as it is read. -/
def rangeDocument (x : Float) : Value :=
  .ofMembers [(.str "openapi", .str "3.0.0"), (.str "components", .ofMembers [(.str "schemas",
    .ofMembers [(.str "Range", .ofMembers [(.str "properties", .ofMembers [(.str "low",
      .ofMembers [(.str "type", .str "number"), (.str "minimum", .float x)])])])])])]

def rangeField (x : Float) : Field :=
  ⟨some "low", some "number", none, none, none, none, none, none, none, some (.float x), none, none⟩

def rangeOutline (x : Float) : Outline := ⟨[⟨"Range", none, [rangeField x]⟩, .attachment], []⟩

def rangeSetting : Setting := ⟨.default, ⟨.json, false, false, none, some 2, true⟩⟩

theorem hasFiniteBounds_rangeOutline {x : Float} :
    (rangeOutline x).HasFiniteBounds ↔ isNumber x = true := by
  have hrange : (rangeField x).HasFiniteBounds ↔ isNumber x = true := by
    rw [Field.hasFiniteBounds_iff_of_flat rfl]
    simp [rangeField, Record.Number.isFinite]
  have hattachment : Model.attachment.HasFiniteBounds := by
    intro f hf
    have hbare : ∀ f ∈ Model.attachment.fields, f.items = none ∧ f.minimum = none ∧
        f.maximum = none := by decide +kernel
    obtain ⟨hflat, hminimum, hmaximum⟩ := hbare f hf
    rw [Field.hasFiniteBounds_iff_of_flat hflat]
    simp [hminimum, hmaximum]
  show (∀ m ∈ [_, Model.attachment], m.HasFiniteBounds) ↔ _
  rw [List.forall_mem_cons, List.forall_mem_singleton, and_iff_left hattachment,
    Model.HasFiniteBounds, List.forall_mem_singleton]
  exact hrange

theorem result_ofDocument_range (c : Conventions) (x : Float) :
    (Outline.ofDocument c (rangeDocument x)).result = .ok (rangeOutline x) := by
  have hnodes : (Tree.ofDocument c (rangeDocument x)).result = .ok [] :=
    congrArg Except.ok List.mergeSort_nil
  have hmodels : (Schema.models (rangeDocument x)).result = .ok (rangeOutline x).models := by cbv
  rw [Outline.ofDocument, Logged.result_bind, hnodes]
  show (Schema.models (rangeDocument x) >>= _).result = _
  rw [Logged.result_bind, hmodels]
  rfl

theorem load_rangeHost {bound : String} {x : Float}
    (h : '\r' ∉ (rangeText bound).toList ∧ Text.isBlankText (rangeText bound) = false ∧
      Json.parse (rangeText bound) = .ok (rangeDocument x)) :
    (Source.load (rangeHost bound) "-").result = .ok (rangeDocument x) :=
  Source.load_of_json h.1 h.2.1 h.2.2 rfl

theorem version_rangeDocument (x : Float) : Document.version (rangeDocument x) = .ok "3.0.0" := by
  cbv

theorem result_outlineOf_range {bound : String} {x : Float}
    (hload : (Source.load (rangeHost bound) "-").result = .ok (rangeDocument x)) :
    (rangeSetting.outlineOf "-" (rangeHost bound)).result = .ok (rangeOutline x) := by
  rw [Setting.outlineOf]
  refine Action.result_bind_eq_ok.2 ⟨_, rfl, ?_⟩
  refine Action.result_bind_eq_ok.2 ⟨_, hload, ?_⟩
  refine Action.result_bind_eq_ok.2 ⟨"3.0.0", version_rangeDocument x, ?_⟩
  refine Action.result_bind_eq_ok.2 ⟨_, rfl, ?_⟩
  refine Action.result_bind_eq_ok.2 ⟨0, rfl, ?_⟩
  refine Action.result_bind_eq_ok.2 ⟨(), rfl, ?_⟩
  exact result_ofDocument_range _ x

theorem result_perform_range {bound : String} {x : Float}
    (hload : (Source.load (rangeHost bound) "-").result = .ok (rangeDocument x)) :
    (rangeSetting.perform (.parse "-") (rangeHost bound)).result = .ok true := by
  refine Action.result_bind_eq_ok.2 ⟨_, result_outlineOf_range hload, ?_⟩
  obtain ⟨data, hdata⟩ : ∃ data, (rangeOutline x).write .published = some data := ⟨_, by cbv⟩
  have hpublished : (rangeOutline x).publish depthLimit = .ok data :=
    publish_eq_ok.2 ⟨by cbv, hdata⟩
  refine Action.result_bind_eq_ok.2 ⟨(), ?_, rfl⟩
  rw [presentOutline, hpublished]
  refine Action.result_bind_eq_ok.2 ⟨data, rfl, ?_⟩
  refine Action.result_bind_eq_ok.2 ⟨(), ?_, rfl⟩
  have htext : rangeSetting.output.jsonText data = .ok (Json.render ⟨some 2, false⟩ data) :=
    if_pos (Bool.or_true _)
  exact Action.result_bind_eq_ok.2 ⟨_, htext, rfl⟩

theorem emitted_text_is_json_iff_of_range :
    (rangeSetting.perform (.parse "-") (rangeHost "1.5")).result = .ok true ∧
    ∃ content, rangeSetting.output.Emits content
        (rangeSetting.perform (.parse "-") (rangeHost "1.5")) ∧
      Json.Grammar.IsText content.toList := by
  have hload : (Source.load (rangeHost "1.5") "-").result = .ok (rangeDocument 1.5) :=
    load_rangeHost (by decide +kernel)
  have hresult := result_perform_range hload
  obtain ⟨outline, data, content, houtline, -, -, hemits, hiff⟩ :=
    emitted_text_is_json_iff (fun _ => by decide) hresult
  rw [result_outlineOf_range hload] at houtline
  cases houtline
  exact ⟨hresult, content, hemits, hiff.2 (hasFiniteBounds_rangeOutline.2 (by decide +kernel))⟩

/-- A bound that is too large for a number is printed by a name that is none in JSON. -/
theorem infinite_bound_is_no_json :
    (rangeSetting.perform (.parse "-") (rangeHost "1e400")).result = .ok true ∧
    ¬ Json.Grammar.IsText (Show.Streams.ofEvents false
      (rangeSetting.perform (.parse "-") (rangeHost "1e400")).events).output.toList := by
  have hload : (Source.load (rangeHost "1e400") "-").result = .ok (rangeDocument (1.0 / 0.0)) :=
    load_rangeHost (by decide +kernel)
  have hresult := result_perform_range hload
  obtain ⟨outline, data, houtline, hdata, hemits⟩ :=
    emits_perform_parse (fun _ => by decide) hresult
  rw [result_outlineOf_range hload] at houtline
  cases houtline
  refine ⟨hresult, ?_⟩
  replace hemits : (Show.Streams.ofEvents false _).output = _ := hemits
  rw [hemits, isText_render_iff, Outline.isFinite_write hdata, hasFiniteBounds_rangeOutline]
  decide +kernel

end Command

end ApiOutline
