import ProgramGraph.Kind

/-!
# Nodes and edges

A node is one program element with the text it stands for and the stretch of
source it covers.  An edge is a directed relation between two nodes, given by
their ids.  Both are plain data; the graph alone decides which ids exist.
-/

namespace ProgramGraph

/-- The number of a node, unique in its graph and never given twice. -/
abbrev NodeId := Nat

/-- One program element. -/
structure Node where
  id : NodeId
  kind : NodeKind
  /-- The source text of the element, possibly empty. -/
  contents : String
  /-- The position of the first character. -/
  startPosition : Nat
  /-- The position just after the last character. -/
  endPosition : Nat
  /-- The line of `startPosition`. -/
  startLine : Nat
  /-- The line of `endPosition`. -/
  endLine : Nat
  deriving DecidableEq, Repr, Inhabited

namespace Node

/-- The text shown for a node: its contents, or the name of its kind if the
contents are empty. -/
def displayText (node : Node) : String :=
  if node.contents.isEmpty then node.kind.name else node.contents

/-- Whether the node covers exactly the given stretch of source. -/
def hasSpan (node : Node) (first last : Nat) : Bool :=
  node.startPosition == first && node.endPosition == last

end Node

/-- A directed, labelled relation between two nodes. -/
structure Edge where
  source : NodeId
  target : NodeId
  kind : EdgeKind
  deriving DecidableEq, Repr, Inhabited

namespace Edge

/-- Whether the node is one of the two ends. -/
def touches (edge : Edge) (id : NodeId) : Bool :=
  edge.source == id || edge.target == id

/-- The edge as shown in messages. -/
def display (edge : Edge) : String :=
  s!"{edge.source} -[{edge.kind.name}]-> {edge.target}"

end Edge

end ProgramGraph
