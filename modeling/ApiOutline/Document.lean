import ApiOutline.Journal
import ApiOutline.Json.Reader
import ApiOutline.Value.Access
import ApiOutline.Yaml.Value

/-!
# Documents

A document is the mapping that a text denotes, in JSON or in YAML. Where nothing is known about the
text JSON is tried first; a text that is not JSON may still be YAML. Of the documents only those of
the third generation of the format are accepted.

The readers go down into a value with the values within it, and what they can spend on that is a
`Stack`. It depends on the system, and on what has been spent before.
-/

namespace ApiOutline.Document

/-- What is known about the notation of a text. -/
inductive Hint where
  | json
  | yaml
  | unknown
  deriving Repr, DecidableEq

/-- What the readers can spend on values within values. The reader of JSON spends the same on every
bracket. What the reader of YAML spends on a node depends on all that stands in it, so it is only
said which texts are too deep for it; as no node is without a character, none of them is short. -/
structure Stack where
  /-- How many brackets of JSON may be opened, one within the other. -/
  brackets : Json.Room
  /-- How many nodes of YAML may be opened at least. -/
  nodes : Nat
  isTooDeep : String → Bool
  spares : ∀ text, isTooDeep text = true → nodes < text.length

/-- A stack that no text uses up. -/
def Stack.ample : Stack where
  brackets := none
  nodes := 0
  isTooDeep _ := false
  spares _ h := absurd h Bool.false_ne_true

/-- A document that has been read. It is a mapping, of which nothing is kept if it contains
itself. -/
inductive Loaded where
  | mapping (cell : Option Nat) (ms : Members)
  | endless

/-- The value that a document is. What contains itself is none. -/
def Loaded.value : Loaded → Except Failure Value
  | .mapping c ms => .ok (.map c ms)
  | .endless => .error .endless

/-- The failure that an error in a YAML text is. -/
def yamlFailure : Yaml.Error → Failure
  | .malformed => .spec (.unreadable "no YAML document")
  | .outOfRange => .outOfRange
  | .tooLarge => .tooLarge
  | .noDigits => .missingElement
  | .unknownWord => .missingMember
  | .noTimestamp => .noMembers
  | .endless => .endless
  | .circular => .exhausted

/-- A document has to be a mapping. -/
def requireMapping : Value → Except Failure Loaded
  | .map c ms => .ok (.mapping c ms)
  | .null => .error (.spec (.notMapping "empty document"))
  | v => .error (.spec (.notMapping v.kindName))

/-- The document that a text denotes in YAML. -/
def ofYaml (stack : Stack) (content : String) : Except Failure Loaded :=
  if stack.isTooDeep content then .error .exhausted
  else
    match Yaml.read content with
    | .error e => .error (yamlFailure e)
    | .ok (.tree v) => requireMapping v
    | .ok (.endless root) => (requireMapping root).map fun _ => .endless

/-- The document that a text denotes in JSON, or else, unless it has to be JSON, in YAML. -/
def ofJson (stack : Stack) (isJson : Bool) (content : String) : Logged Loaded :=
  match Json.parseWithin stack.brackets content with
  | .ok v => Logged.ofExcept (requireMapping v)
  | .error (.tooManyDigits _) => Logged.fail .outOfRange
  | .error .tooDeep => Logged.fail .exhausted
  | .error (.malformed e) =>
      if isJson then Logged.fail (.spec (.invalidJson e content))
      else do
        Logged.note (.retried (e.message content))
        Logged.ofExcept (ofYaml stack content)

/-- The document that a text denotes. -/
def decode (stack : Stack) (hint : Hint) (content : String) : Logged Loaded :=
  match hint with
  | .yaml => Logged.ofExcept (ofYaml stack content)
  | .json => ofJson stack true content
  | .unknown => ofJson stack false content

/-- The version of the format that a document declares, if it is an accepted one. The version of an
earlier generation goes first. -/
def version (document : Value) : Except Failure String := do
  if ← document.mentions "swagger" then
    match document with
    | .map _ ms => throw (.spec (.oldFormat (Members.find ms "swagger").display))
    | _ => throw .wrongKind
  else
    match Members.find (← document.members) "openapi" with
    | .null => throw (.spec .noVersion)
    | v =>
        if "3.".toList.isPrefixOf v.display.toList then return v.display
        else throw (.spec (.unsupportedVersion v.display))

end ApiOutline.Document
