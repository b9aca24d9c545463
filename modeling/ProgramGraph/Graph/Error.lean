import ProgramGraph.Node

/-!
# What can be wrong with a request to a graph

Every refusal of a graph operation or of a stored record has one of these
causes.  `GraphError.message` is the only place that words them.
-/

namespace ProgramGraph

/-- Why a graph refuses a request. -/
inductive GraphError where
  /-- No node of the graph has this id. -/
  | unknownNode (id : NodeId)
  /-- No edge of the graph equals this one. -/
  | unknownEdge (edge : Edge)
  /-- No syntax key stands for this node. -/
  | nodeNotAssociated (id : NodeId)
  /-- More than one syntax key stands for this node. -/
  | ambiguousAssociation (id : NodeId) (count : Nat)
  /-- The graph of this source file has no root, or several. -/
  | rootCount (sourceFile : String) (count : Nat)
  /-- This id leaves no room for a later one. -/
  | idSpaceExhausted (id : NodeId)
  /-- Neither the node nor an associated token is an identifier. -/
  | noIdentifier (id : NodeId)
  /-- Two stored nodes share this id. -/
  | duplicateNode (id : NodeId)
  deriving DecidableEq, Repr, Inhabited

namespace GraphError

/-- The text of a refusal. -/
def message : GraphError → String
  | unknownNode id => s!"node {id} is not in the graph"
  | unknownEdge edge => s!"no edge {edge.display} is in the graph"
  | nodeNotAssociated id => s!"node {id} has no syntax association"
  | ambiguousAssociation id count =>
      s!"node {id} is associated with {count} syntax keys"
  | rootCount sourceFile count =>
      "graph invariant violated: expected exactly one AST_ROOT node in "
        ++ sourceFile ++ s!", found {count}"
  | idSpaceExhausted id =>
      s!"graph invariant violated: node id space exhausted at {id}"
  | noIdentifier id => s!"node {id} has no associated identifier token"
  | duplicateNode id => s!"node id {id} appears more than once"

end GraphError

end ProgramGraph
