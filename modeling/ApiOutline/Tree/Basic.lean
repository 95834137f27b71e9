import ApiOutline.Tree.Bridge
import ApiOutline.Tree.Merge

/-!
# The path tree

The path tree of a document is the list of its merged nodes and of the bridges between them, from
short paths to long ones. An ancestor has a shorter path than its descendants, so it stands before
them.
-/

namespace ApiOutline.Tree

/-- Nodes in the order of the lengths of their paths. Nodes whose paths are equally long keep their
order. -/
def sort (nodes : List Node) : List Node :=
  nodes.mergeSort fun a b => decide (a.path.length ≤ b.path.length)

/-- The merged nodes of a document. -/
def nodesOf (c : Conventions) (document : Value) : Logged (List Node) := do
  let paths := Members.find (← Logged.ofExcept document.members) "paths"
  if paths.isTruthy then merge c (← Logged.ofExcept (pathsOf paths)) else return []

/-- The path tree of a document. -/
def ofDocument (c : Conventions) (document : Value) : Logged (List Node) := do
  let nodes ← nodesOf c document
  (⟨bridgeNotes c nodes, .ok (sort (nodes ++ bridges c nodes))⟩ : Logged (List Node))

end ApiOutline.Tree
