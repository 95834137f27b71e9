import ApiOutline.Failure
import ApiOutline.Model
import ApiOutline.Node

/-!
# Outlines

An `Outline` is all that a client generator needs to know of an API: its models and its path
tree.

An outline, or a part of it, is published unless it is nested too deep or a value in it has no plain
form. The limit holds for every record by itself: a field and each of its free values count, the
records around them do not.
-/

namespace ApiOutline

open Record (Checked Form Entry)

/-- The models and the path tree of an API. -/
structure Outline where
  models : List Model
  nodes : List Node
  deriving Inhabited

namespace Outline

def read : Value → Checked Outline
  | .map _ ms =>
      Outline.mk <$> Record.optional ms "models" [] [] (Record.listOf Model.read)
        <*> Record.optional ms "paths" [] [] (Record.listOf Node.read)
  | _ => .fault .notRecord

def write (form : Form) (o : Outline) : Option Value :=
  match o.models.mapM (Model.write form), o.nodes.mapM (Node.write form) with
  | some models, some nodes =>
      some (form.write
        [.same "models" (some (.list models)), .same "paths" (some (.list nodes))])
  | _, _ => none

/-- How deep an outline is nested. -/
def nesting (o : Outline) : Nat :=
  max (Value.deepest (o.models.map Model.nesting)) (Value.deepest (o.nodes.map Node.nesting))

end Outline

/-- The deepest nesting that is published. -/
def depthLimit : Nat := 255

/-- What is published of a record, given how deep it is nested and what is written of it. -/
def publish (limit nesting : Nat) (written : Option Value) : Except Failure Value :=
  if limit < nesting then .error .tooDeep
  else
    match written with
    | some v => .ok v
    | none => .error .unwritable

section

variable {limit nesting : Nat} {written : Option Value} {v : Value}

theorem publish_eq_ok : publish limit nesting written = .ok v ↔
    nesting ≤ limit ∧ written = some v := by
  unfold publish
  by_cases hdeep : limit < nesting
  · rw [if_pos hdeep]
    simp [Nat.not_le.2 hdeep]
  · rw [if_neg hdeep]
    cases written with
    | none => simp
    | some w => simp [Nat.le_of_not_lt hdeep]

theorem publish_of_deep (h : limit < nesting) :
    publish limit nesting written = .error .tooDeep := if_pos h

end

def Operation.publish (limit : Nat) (op : Operation) : Except Failure Value :=
  ApiOutline.publish limit op.nesting (op.write .published)

def Node.publish (limit : Nat) (n : Node) : Except Failure Value :=
  ApiOutline.publish limit n.nesting (n.write .published)

def Model.publish (limit : Nat) (m : Model) : Except Failure Value :=
  ApiOutline.publish limit m.nesting (m.write .published)

def Outline.publish (limit : Nat) (o : Outline) : Except Failure Value :=
  ApiOutline.publish limit o.nesting (o.write .published)

end ApiOutline
