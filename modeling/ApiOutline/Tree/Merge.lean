import ApiOutline.Definition.Operation
import ApiOutline.Endpoint
import ApiOutline.Node

/-!
# Folding endpoints into nodes

A collection and its items have templates that differ in a trailing parameter only, and so have the
same segments. They share one node. Templates are visited from short to long, so the collection
comes first; when the template of an item arrives, a new node takes the place of the collection's.
It holds the operations of the collection, of which those that the item repeats get roles of their
own, followed by those of the item.

A template without a trailing parameter adds its operations to the node that is there. An
operation whose role is taken is dropped, and a warning says so.

Nodes stand in a list in the order in which they were made. No two have the same segments.
-/

namespace ApiOutline.Tree

/-- The role that an operation of a collection gets when its items have the same method. -/
def collectionRoles : List (String × String) :=
  [("get", "list"), ("delete", "deleteAll")]

/-- The roles among `pending` given to the first operations whose own roles they replace. -/
def relabel : List (String × String) → List Operation → List Operation
  | _, [] => []
  | pending, op :: rest =>
      match pending.lookup op.role with
      | none => op :: relabel pending rest
      | some role =>
          { op with role := role } :: relabel (pending.filter fun p => p.1 != op.role) rest

/-- The collection roles for the methods that an item defines. -/
def pendingRoles (item : Members) : List (String × String) :=
  collectionRoles.filter fun p => Members.has item (.str p.1)

/-- The operations that the node of an item takes over from the node it replaces. -/
def transferred (existing : Option Node) (item : Members) : List Operation :=
  match existing with
  | none => []
  | some n => relabel (pendingRoles item) n.operations

/-- Adds the operations that an item defines for some methods, in their order. Where `appending`
says so, an operation whose role is taken is dropped. -/
def gather (c : Conventions) (e : Endpoint) (item : Members) (path : String) (appending : Bool) :
    List String → List Operation → Logged (List Operation)
  | [], ops => pure ops
  | m :: rest, ops => do
      match ← Operation.ofDefinition? c.methods e.template m (Members.find item m) with
      | none => gather c e item path appending rest ops
      | some op =>
          if appending && ops.any (·.role == op.role) then do
            Logged.note (.dropped e.raw path op)
            gather c e item path appending rest ops
          else gather c e item path appending rest (ops ++ [op])

/-- The node with these segments. -/
def nodeAt (nodes : List Node) (segments : List String) : Option Node :=
  nodes.find? fun n => n.segments == segments

/-- The nodes with other segments. -/
def without (nodes : List Node) (segments : List String) : List Node :=
  nodes.filter fun n => n.segments != segments

/-- Puts a node in the place of the one with its segments, or at the end if there is none. -/
def put (nodes : List Node) (node : Node) : List Node :=
  match nodes with
  | [] => [node]
  | n :: rest => if n.segments == node.segments then node :: rest else n :: put rest node

/-- The node of an endpoint before it has operations. -/
def freshNode (c : Conventions) (e : Endpoint) : Node where
  segments := e.segments
  parameter := e.parameter
  defaultParameter := e.defaultParameter c
  operations := []
  endpoint := some e.template

/-- Stores a node that has operations. -/
def store (nodes : List Node) (node : Node) (operations : List Operation) : List Node :=
  if operations.isEmpty then nodes else put nodes { node with operations := operations }

/-- Adds what one path item describes. -/
def addItem (c : Conventions) (e : Endpoint) (item : Members) (nodes : List Node) :
    Logged (List Node) := do
  let existing := nodeAt nodes e.segments
  let path := "/".intercalate e.segments
  if e.isParameterized then
    let operations ← gather c e item path false c.methods (transferred existing item)
    return store (without nodes e.segments) (freshNode c e) operations
  else
    match existing with
    | some n =>
        let operations ← gather c e item path true c.methods n.operations
        return store nodes n operations
    | none =>
        let operations ← gather c e item path false c.methods []
        return store nodes (freshNode c e) operations

/-- Adds one member of the paths of a document. What is no path item is passed over. -/
def addMember (c : Conventions) (template item : Value) (nodes : List Node) :
    Logged (List Node) :=
  match item with
  | .map _ ms => do
      Logged.note (.endpoint template.display)
      match template with
      | .str raw => do
          let e ← Logged.ofExcept (Endpoint.ofTemplate c.rules raw)
          addItem c e ms nodes
      | _ => Logged.fail .wrongKind
  | _ => pure nodes

/-- Adds members one after the other. -/
def addMembers (c : Conventions) : Members → List Node → Logged (List Node)
  | [], nodes => pure nodes
  | m :: rest, nodes => do addMembers c rest (← addMember c m.1 m.2 nodes)

/-- The length of a template. -/
def templateLength : Value → Option Nat
  | .str s => some s.length
  | .bytes bs => some bs.length
  | _ => none

/-- The members of `paths` from short templates to long ones. Templates of one length keep their
order. -/
def ordered (paths : Members) : Members :=
  paths.mergeSort fun a b =>
    decide ((templateLength a.1).getD 0 ≤ (templateLength b.1).getD 0)

/-- The nodes of all path items in the members of `paths`. -/
def merge (c : Conventions) (paths : Members) : Logged (List Node) :=
  if paths.all fun m => (templateLength m.1).isSome then addMembers c (ordered paths) []
  else Logged.fail .wrongKind

/-- The members of a value in the place of `paths`: only a mapping has any, and of the other values
only those are let pass that are empty. -/
def pathsOf : Value → Except Failure Members
  | .map _ ms => .ok ms
  | .list [] | .set [] | .str "" | .bytes [] => .ok []
  | _ => .error .wrongKind

end ApiOutline.Tree
