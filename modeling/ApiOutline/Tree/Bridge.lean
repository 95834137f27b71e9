import ApiOutline.Journal
import ApiOutline.Node
import ApiOutline.Settings
import ApiOutline.Template

/-!
# Bridges

Every node needs all its ancestors, also those at which no operation is found. For each prefix of
the segments of a node that no node has there is a bridge. It takes a parameter where the template
of the first node that needs it has one directly after the prefix, and the parameter's default is
the version that belongs to the last segment.
-/

namespace ApiOutline.Tree

/-- The proper prefixes of a list that are not empty, from short to long. -/
def properPrefixes (segments : List String) : List (List String) :=
  (List.range (segments.length - 1)).map fun n => segments.take (n + 1)

/-- The bridge for a prefix of the segments of a node. -/
def bridgeFor (c : Conventions) (node : Node) (before : List String) : Node where
  segments := before
  parameter := Template.parameterAfter (node.endpoint.getD "") before
  defaultParameter :=
    match Template.parameterAfter (node.endpoint.getD "") before, before.getLast? with
    | some _, some last => c.versionDefaults.lookup last
    | _, _ => none
  operations := []
  endpoint := none

/-- What is noted about a bridge. -/
def bridgeNote (node bridge : Node) : Note :=
  .bridge bridge.path bridge.parameter bridge.defaultParameter node.endpoint

/-- The nodes and prefixes that may need a bridge, in the order in which they are looked at. -/
def candidates (nodes : List Node) : List (Node × List String) :=
  nodes.flatMap fun n => (properPrefixes n.segments).map fun p => (n, p)

/-- The candidates whose prefix is not known, each prefix once. -/
def missing : List (List String) → List (Node × List String) → List (Node × List String)
  | _, [] => []
  | known, (n, p) :: rest =>
      if known.contains p then missing known rest else (n, p) :: missing (p :: known) rest

/-- The bridges that some nodes need. -/
def bridges (c : Conventions) (nodes : List Node) : List Node :=
  (missing (nodes.map Node.segments) (candidates nodes)).map fun m => bridgeFor c m.1 m.2

/-- The notes about the bridges that some nodes need. -/
def bridgeNotes (c : Conventions) (nodes : List Node) : List Note :=
  (missing (nodes.map Node.segments) (candidates nodes)).map fun m =>
    bridgeNote m.1 (bridgeFor c m.1 m.2)

end ApiOutline.Tree
