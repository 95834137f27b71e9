import ApiOutline.Proofs.Files.Names
import ApiOutline.Proofs.Journal
import ApiOutline.Proofs.Json.Limit
import ApiOutline.Proofs.Text
import ApiOutline.Proofs.Yaml.Value
import ApiOutline.Source

/-!
# How loading ends

A source is loaded as a mapping, or the failure is one of documents, which the
user is told of. Other failures escape, each for a reason in the source itself
(`Escapes`): a file name that the file system refuses, bytes that are no text, a
text that is nested too deep for its reader, or one whose grammar is kept while
a number, a character or a scalar in it has no value. Reading, decoding and the
check for a mapping each have a lemma that lists how they end.
-/

namespace ApiOutline

namespace Document

/-- Why the failure to decode a text is none of documents. -/
inductive Escapes (stack : Stack) (hint : Hint) (text : String) : Failure → Prop where
  | integer {run : List Char} (hhint : hint ≠ .yaml) (hrun : run <:+: text.toList)
      (hlong : IsLongRun run) : Escapes stack hint text .outOfRange
  | brackets {n : Nat} (hhint : hint ≠ .yaml) (hroom : stack.brackets = some n)
      (hmany : n < Json.openings text.toList) : Escapes stack hint text .exhausted
  | nodes (hhint : hint ≠ .json) (hdeep : stack.isTooDeep text = true)
      (hlong : stack.nodes < text.length) : Escapes stack hint text .exhausted
  | yaml {e : Yaml.Error} (hhint : hint ≠ .json) (h : Yaml.Unreadable text e)
      (hgrammar : e ≠ .malformed) : Escapes stack hint text (yamlFailure e)

/-- How a step towards a document ends: with a mapping, with a failure of documents, or with one
that escapes. -/
inductive Ends (escapes : Failure → Prop) : Except Failure Loaded → Prop where
  | loaded (document : Loaded) : Ends escapes (.ok document)
  | refused (reason : SpecError) : Ends escapes (.error (.spec reason))
  | escaped {e : Failure} (h : escapes e) : Ends escapes (.error e)

variable {stack : Stack} {hint : Hint} {text : String} {escapes : Failure → Prop}

theorem Ends.mono {escapes' : Failure → Prop} {x : Except Failure Loaded} (h : Ends escapes x)
    (hescapes : ∀ e, escapes e → escapes' e) : Ends escapes' x := by
  cases h with
  | loaded document => exact .loaded document
  | refused reason => exact .refused reason
  | escaped he => exact .escaped (hescapes _ he)

theorem Ends.map {x : Except Failure Loaded} (h : Ends escapes x) (f : Loaded → Loaded) :
    Ends escapes (x.map f) := by
  cases h with
  | loaded document => exact .loaded _
  | refused reason => exact .refused reason
  | escaped he => exact .escaped he

theorem ends_requireMapping (v : Value) : Ends escapes (requireMapping v) := by
  cases v with
  | map cell ms => exact .loaded _
  | _ => exact .refused _

theorem ends_ofYaml (hhint : hint ≠ .json) :
    Ends (Escapes stack hint text) (ofYaml stack text) := by
  unfold ofYaml
  split
  · next hdeep => exact .escaped (.nodes hhint hdeep (stack.spares text hdeep))
  · split
    · next e hread =>
        have hescapes : e ≠ .malformed → Escapes stack hint text (yamlFailure e) :=
          .yaml hhint (Yaml.unreadable_of_read hread)
        cases e with
        | malformed => exact .refused _
        | _ => exact .escaped (hescapes (by simp))
    · exact ends_requireMapping _
    · exact (ends_requireMapping _).map _

theorem ends_ofJson {isJson : Bool} (hyaml : hint ≠ .yaml) (hjson : isJson = false → hint ≠ .json) :
    Ends (Escapes stack hint text) (ofJson stack isJson text).result := by
  unfold ofJson
  split
  · exact ends_requireMapping _
  · next count hparse =>
      obtain ⟨run, hrun, hlong⟩ := Json.exists_longRun hparse
      exact .escaped (.integer hyaml hrun hlong)
  · next hparse =>
      obtain ⟨n, hroom, hmany⟩ := Json.exists_room_of_tooDeep hparse
      exact .escaped (.brackets hyaml hroom hmany)
  · split
    · exact .refused _
    · next hopen => exact ends_ofYaml (hjson (Bool.eq_false_iff.2 hopen))

theorem ends_decode (stack : Stack) (hint : Hint) (text : String) :
    Ends (Escapes stack hint text) (decode stack hint text).result := by
  unfold decode
  split
  · exact ends_ofYaml (by decide)
  · exact ends_ofJson (by decide) (by decide)
  · exact ends_ofJson (by decide) (by decide)

end Document

namespace Source

variable {stack : Document.Stack} {h : Host} {source : String} {bs : List UInt8}

/-- The bytes that are read from a source, unless it is on a server. -/
inductive Holds (h : Host) : String → List UInt8 → Prop where
  | input : Holds h "-" h.input
  | file {source : String} {bs : List UInt8} (hdash : source ≠ "-")
      (haddress : isAddress source = false)
      (hfile : h.files.fileAt? h.directory (.ofText source) = .ok (some bs)) : Holds h source bs

/-- That a server answers with bytes that are no text to the codec which the answer names. -/
structure AnswersNoText (h : Host) (source : String) (codec : Codec) : Prop where
  address : isAddress source = true
  named : ∃ status type body, h.reply = .response status type body ∧
    (encodingName? (type.getD "")).bind (h.codecs.lookup ·) = some codec ∧ codec body = none

/-- Why the failure to load a source is none of documents. -/
inductive Escapes (stack : Document.Stack) (h : Host) (source : String) : Failure → Prop where
  | name (haddress : isAddress source = false) (hlong : ¬Files.Fits (.ofText source)) :
      Escapes stack h source (.file .refused)
  | bytes {bs : List UInt8} (hbytes : Holds h source bs) (hbroken : Text.decodeUtf8? bs = none) :
      Escapes stack h source .notUnicode
  | codec {codec : Codec} (hanswer : AnswersNoText h source codec) :
      Escapes stack h source .undecodable
  | text {text : String} {hint : Document.Hint} {e : Failure}
      (hcontent : content h source = .ok (text, hint))
      (htext : Document.Escapes stack hint text e) : Escapes stack h source e

theorem eq_error_of_map {α β : Type} {x : Except Failure α} {f : α → β} {e : Failure}
    (hfail : x.map f = .error e) : x = .error e := by
  cases x with
  | ok a => cases hfail
  | error e' =>
      cases hfail
      rfl

theorem error_of_fileText {e : Failure} (hfail : fileText bs = .error e) :
    e = .notUnicode ∧ Text.decodeUtf8? bs = none := by
  unfold fileText at hfail
  split at hfail
  · cases hfail
  · next hbroken =>
      cases hfail
      exact ⟨rfl, hbroken⟩

theorem error_of_answerText {codecs : List (String × Codec)} {type : String} {e : Failure}
    (hfail : answerText codecs type bs = .error e) :
    e = .undecodable ∧
      ∃ codec, (encodingName? type).bind (codecs.lookup ·) = some codec ∧ codec bs = none := by
  unfold answerText at hfail
  split at hfail
  · cases hfail
  · next name hname =>
      split at hfail
      · cases hfail
      · cases hfail
      · next codec _ hcodec =>
          split at hfail
          · cases hfail
          · next hbroken =>
              cases hfail
              exact ⟨rfl, codec, by rw [hname, Option.bind_some, hcodec], hbroken⟩

theorem error_of_fetch {e : Failure} (haddress : isAddress source = true)
    (hfail : fetch h source = .error e) :
    (∃ reason, e = .spec reason) ∨ Escapes stack h source e := by
  unfold fetch at hfail
  split at hfail
  · cases hfail
    exact .inl ⟨_, rfl⟩
  · next status type body hreply =>
      split at hfail
      · obtain ⟨rfl, codec, hcodec, hbroken⟩ := error_of_answerText (eq_error_of_map hfail)
        exact .inr (.codec ⟨haddress, status, type, body, hreply, hcodec, hbroken⟩)
      · cases hfail
        exact .inl ⟨_, rfl⟩

theorem escapes_of_fileText {α : Type} {f : String → α} {e : Failure} (hbytes : Holds h source bs)
    (hfail : (fileText bs).map f = .error e) : Escapes stack h source e := by
  obtain ⟨rfl, hbroken⟩ := error_of_fileText (eq_error_of_map hfail)
  exact .bytes hbytes hbroken

/-- If nothing can be read, then for a reason that is one of documents, or that is in the name or
the bytes. -/
theorem error_of_content {e : Failure} (hfail : content h source = .error e) :
    (∃ reason, e = .spec reason) ∨ Escapes stack h source e := by
  unfold content at hfail
  split at hfail
  · next hdash =>
      subst hdash
      exact .inr (escapes_of_fileText .input hfail)
  · next hdash =>
      split at hfail
      · next haddress => exact error_of_fetch haddress hfail
      · next haddress =>
          have haddress := Bool.eq_false_iff.2 haddress
          unfold ofFile at hfail
          split at hfail
          · next hrefused =>
              cases hfail
              obtain ⟨rfl, hlong⟩ := Files.not_fits_of_fileAt?_error hrefused
              exact .inr (.name haddress hlong)
          · cases hfail
            exact .inl ⟨_, rfl⟩
          · next hfile => exact .inr (escapes_of_fileText (.file hdash haddress hfile) hfail)

/-- A text without carriage returns is read from its bytes. -/
theorem fileText_encodeUtf8 {text : String} (hends : '\r' ∉ text.toList) :
    fileText (Text.encodeUtf8 text) = .ok text := by
  rw [fileText, Text.decodeUtf8?_encodeUtf8]
  simp only [Text.ofList_unifyLineEnds hends]

section Json

variable {text : String} {cell : Option Nat} {ms : Members}
  (hends : '\r' ∉ text.toList) (hblank : Text.isBlankText text = false)
  (hparse : Json.parse text = .ok (.map cell ms))

include hblank hparse

/-- A mapping that is written in JSON is loaded, unless it has to be YAML. -/
theorem load_of_content {hint : Document.Hint} (hcontent : content h source = .ok (text, hint))
    (hhint : hint ≠ .yaml) : (load h source).result = .ok (.map cell ms) := by
  have hjson : ∀ isJson,
      (Document.ofJson .ample isJson text).result = .ok (.mapping cell ms) := by
    intro isJson
    have hvalue : Json.parseWithin Document.Stack.ample.brackets text = .ok (.map cell ms) := hparse
    rw [Document.ofJson, hvalue]
    rfl
  have hread : (read .ample h source).result = .ok (.mapping cell ms) := by
    rw [read, Logged.result_bind, hcontent]
    show Logged.result (if Text.isBlankText text then _ else _) = _
    rw [if_neg (Bool.eq_false_iff.1 hblank), Logged.result_bind]
    cases hint with
    | json => exact hjson true
    | yaml => exact absurd rfl hhint
    | unknown => exact hjson false
  rw [load, Logged.result_bind, hread]
  rfl

include hends

theorem load_of_json (hinput : h.input = Text.encodeUtf8 text) :
    (load h "-").result = .ok (.map cell ms) := by
  have hcontent : content h "-" = .ok (text, .unknown) := by
    rw [content, if_pos rfl, hinput, fileText_encodeUtf8 hends]
    rfl
  exact load_of_content hblank hparse hcontent (by decide)

/-- A mapping that is written in JSON into a file is loaded from it, unless the file is named as
one of YAML. -/
theorem load_of_jsonFile (hdash : source ≠ "-") (haddress : isAddress source = false)
    (hfile : h.files.fileAt? h.directory (.ofText source) = .ok (some (Text.encodeUtf8 text)))
    (hhint : hintOfSuffix (Path.ofText source).suffix ≠ .yaml) :
    (load h source).result = .ok (.map cell ms) := by
  refine load_of_content hblank hparse ?_ hhint
  rw [content, if_neg hdash, if_neg (Bool.eq_false_iff.1 haddress), ofFile, hfile]
  simp only [fileText_encodeUtf8 hends]
  rfl

end Json

theorem ends_read (stack : Document.Stack) (h : Host) (source : String) :
    Document.Ends (Escapes stack h source) (read stack h source).result := by
  unfold read
  rw [Logged.result_bind, Logged.result_ofExcept]
  cases hcontent : content h source with
  | error e =>
      rcases error_of_content hcontent with ⟨reason, rfl⟩ | hescapes
      · exact .refused reason
      · exact .escaped hescapes
  | ok found =>
      obtain ⟨text, hint⟩ := found
      change Document.Ends _ (Logged.result (if Text.isBlankText text then _ else _))
      split
      · exact .refused _
      · rw [Logged.result_bind]
        exact (Document.ends_decode stack hint text).mono fun e he => .text hcontent he

/-- A host with some bytes on its input and nothing else. -/
def hostWith (input : List UInt8) : Host where
  files := ⟨[]⟩
  directory := []
  environment := []
  system := ""
  input := input
  reply := .failed ""
  clock := ""
  isTerminal := false

/-- A mapping that contains itself is a mapping. -/
example : (match (read .ample (hostWith (Text.encodeUtf8 "a: &x \x7bb: *x\x7d\n")) "-").result with
    | .ok .endless => true
    | _ => false) = true := by decide +kernel

/-- Every limit on brackets has an input that exceeds it, which is no error of documents either. -/
theorem read_of_brackets {n : Nat} (hroom : stack.brackets = some n) :
    let text := String.ofList (List.replicate (n + 1) '[')
    (read stack (hostWith (Text.encodeUtf8 text)) "-").result = .error .exhausted := by
  intro text
  have hends : '\r' ∉ text.toList := by
    rw [String.toList_ofList]
    intro hmem
    cases List.eq_of_mem_replicate hmem
  have hblank : Text.isBlankText text = false := by
    rw [Text.isBlankText, String.toList_ofList, List.replicate_succ, List.all_cons]
    exact Bool.and_eq_false_imp.2 fun h => absurd h (by decide)
  have hcontent : content (hostWith (Text.encodeUtf8 text)) "-" = .ok (text, .unknown) :=
    congrArg (Except.map fun s => (s, Document.Hint.unknown)) (fileText_encodeUtf8 hends)
  rw [read, Logged.result_bind, hcontent]
  show Logged.result (if Text.isBlankText text then _ else _) = _
  rw [if_neg (Bool.eq_false_iff.1 hblank), Logged.result_bind]
  show (Document.ofJson stack false text).result = _
  rw [Document.ofJson, hroom, Json.parseWithin_of_brackets]
  rfl

end Source

end ApiOutline
