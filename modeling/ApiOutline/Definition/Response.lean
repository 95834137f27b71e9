import ApiOutline.Naming
import ApiOutline.Value.Access

/-!
# Responses

Of the responses an operation declares, the one with the most telling status counts: success first,
then a redirection, then the rest. A status may be written as a text or as a number. A response
that is declared empty still counts as declared.
-/

namespace ApiOutline.Definition

/-- A status under which a response may be declared: a number, or what applies to all others. -/
inductive Status where
  | code (n : Nat)
  | otherwise
  deriving Repr, DecidableEq

namespace Status

/-- The statuses that are looked for, the most telling first. -/
def priority : List Status :=
  [.code 200, .code 201, .code 202, .code 204, .code 205, .code 302, .code 501, .otherwise]

/-- The keys that stand for a status, the preferred one first. -/
def keys : Status → List Value
  | .code n => [.str (Decimal.natText n), .int n]
  | .otherwise => [.str "default"]

end Status

namespace Response

/-- The first value that is not null under one of some keys. -/
def firstUnder (responses : Members) (keys : List Value) : Option Value :=
  keys.findSome? fun k =>
    match Members.get? responses k with
    | some .null => none
    | found => found

/-- The response that counts. -/
def chosen (responses : Members) : Option Value :=
  firstUnder responses (Status.priority.flatMap Status.keys)

/-- A schema in which a reference is shortened to the name it points at. -/
def shortened (schema : Members) : Except Failure Members :=
  match Members.find? schema "$ref" with
  | none => .ok schema
  | some ref => do return Members.set schema "$ref" (.str (← Naming.refNameOf ref))

/-- The schema of the first media type of a response. -/
def schema (response : Value) : Except Failure (Option Members) := do
  let content :=
    match response with
    | .map _ ms => Members.find ms "content"
    | _ => .null
  match ← content.membersIfAny with
  | [] => return none
  | (_, mediaType) :: _ =>
      match Members.find (← mediaType.membersIfAny) "schema" with
      | .map _ ms => some <$> shortened ms
      | _ => return none

end Response

end ApiOutline.Definition
