import ApiOutline.Operation

/-!
# Nodes of the path tree

A `Node` stands for one resource: the literal segments that lead to it, the parameter that may
follow them with its default, and the operations found there. A node without an endpoint is a
bridge, made only so that every node has its ancestors.
-/

namespace ApiOutline

open Record (Checked Form Entry)

/-- One resource of an API. -/
structure Node where
  segments : List String
  parameter : Option String
  defaultParameter : Option String
  operations : List Operation
  endpoint : Option String
  deriving Inhabited

namespace Node

/-- Whether a node only connects others. -/
def isBridge (n : Node) : Bool := n.endpoint.isNone

/-- The first operation of a node with a role. -/
def findOperation (n : Node) (role : String) : Option Operation :=
  n.operations.find? fun op => op.role == role

/-- The segments with a slash between two of them. -/
def path (n : Node) : String := "/".intercalate n.segments

def read : Value → Checked Node
  | .map _ ms =>
      Node.mk <$> Record.required ms "paths" [] (Record.tupleOf Record.text)
        <*> Record.optional ms "parameter" [] none (Record.nullable Record.text)
        <*> Record.optional ms "defaultParameter" ["default_parameter"] none
              (Record.nullable Record.text)
        <*> Record.optional ms "operations" [] [] (Record.tupleOf Operation.read)
        <*> Record.optional ms "endpoint" [] none (Record.nullable Record.text)
  | _ => .fault .notRecord

def write (form : Form) (n : Node) : Option Value :=
  match n.operations.mapM (Operation.write form) with
  | none => none
  | some operations =>
      some (form.write
        [.same "paths" (some (Record.texts n.segments)), .same "parameter" (n.parameter.map .str),
         ⟨"defaultParameter", "default_parameter", n.defaultParameter.map .str⟩,
         .same "operations" (some (.list operations)), .same "endpoint" (n.endpoint.map .str)])

/-- How deep the operations of a node are nested. -/
def nesting (n : Node) : Nat := Value.deepest (n.operations.map Operation.nesting)

end Node

end ApiOutline
