import ProgramGraph.Graph.Query

/-!
# Records

A record is a graph as it is stored: the name of its file, its nodes and its
edges.  Every graph has a record, and a record that is consistent is loaded into
a graph again.  Syntax keys, empty slots and the lines of the source are not
stored.
-/

namespace ProgramGraph

/-- A graph in its stored form. -/
structure Record where
  sourceFile : String
  nodes : List Node
  edges : List Edge
  deriving DecidableEq, Repr, Inhabited

namespace Graph

/-- The first number that is no node id of a stored graph.  Ids fill 64 bits and
the id after the greatest one has to fit too. -/
def idBound : Nat :=
  Nat.pow 2 64 - 1

/-- The stored form of a graph. -/
def toRecord (graph : Graph) : Record where
  sourceFile := graph.sourceFile
  nodes := graph.nodes
  edges := graph.edges

/-- Put a node into a list of nodes that is ordered by id. -/
def insertById (node : Node) : List Node → List Node
  | [] => [node]
  | first :: rest =>
      if node.id < first.id then node :: first :: rest else first :: insertById node rest

/-- Load one stored node.  A repeated id is refused before an id that is too
large. -/
def loadNode (graph : Graph) (node : Node) : Except GraphError Graph :=
  if graph.contains node.id then
    .error (.duplicateNode node.id)
  else if idBound ≤ node.id then
    .error (.idSpaceExhausted node.id)
  else
    .ok { graph with
      nodes := insertById node graph.nodes
      nextId := max graph.nextId (node.id + 1) }

/-- Load one stored edge. -/
def loadEdge (graph : Graph) (edge : Edge) : Except GraphError Graph :=
  (graph.addEdge edge.source edge.target edge.kind).map (·.2)

/-- The graph of a record, with ids, stretches and lines as stored.  All nodes
are loaded before the first edge.  The graph knows no source text, so nodes
created on it later stand on line one. -/
def ofRecord (record : Record) : Except GraphError Graph := do
  let graph ← record.nodes.foldlM loadNode (empty record.sourceFile {})
  record.edges.foldlM loadEdge graph

end Graph

end ProgramGraph
