import ApiOutline.Failure
import ApiOutline.Text.Class
import ApiOutline.Value.Basic

/-!
# Asking a document for its parts

A description of an API prescribes the shape of its documents, but a document may have any other.
The functions here ask a value for what the description says it has, and say which failure it is
when the value has no such thing.
-/

namespace ApiOutline.Value

/-- The members of a mapping. Nothing else has members. -/
def members : Value → Except Failure Members
  | .map _ ms => .ok ms
  | _ => .error .noMembers

/-- The members of a mapping, and none where nothing stands in its place. -/
def membersIfAny (v : Value) : Except Failure Members :=
  if v.isTruthy then v.members else .ok []

/-- Whether a value is a mapping. -/
def isMap : Value → Bool
  | .map _ _ => true
  | _ => false

/-- Whether a text is among the keys of a mapping or the elements of a list or set, or occurs in
another text. Of other values nothing can be a part. -/
def mentions (v : Value) (text : String) : Except Failure Bool :=
  match v with
  | .map _ ms => .ok (Members.has ms (.str text))
  | .list items | .set items => .ok (items.any (·.isStr text))
  | .str s => .ok (Text.occursIn text.toList s.toList)
  | _ => .error .wrongKind

/-- The members of those values in a list that are mappings. -/
def mappings (vs : List Value) : List Members :=
  vs.filterMap fun
    | .map _ ms => some ms
    | _ => none

/-- The mappings that a value consists of. A mapping consists of its keys and a text of its
characters, none of which is a mapping; a number consists of nothing that could be listed. -/
def mappingsIfAny (v : Value) : Except Failure (List Members) :=
  if v.isTruthy then
    match v with
    | .list items => .ok (mappings items)
    | .set _ | .map _ _ | .str _ | .bytes _ => .ok []
    | _ => .error .wrongKind
  else .ok []

@[simp] theorem members_map (c : Option Nat) (ms : Members) : members (.map c ms) = .ok ms := rfl

theorem members_eq_ok {v : Value} {ms : Members} (h : v.members = .ok ms) :
    ∃ c, v = .map c ms := by
  cases v <;> simp_all [members]

end ApiOutline.Value
