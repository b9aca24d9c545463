import ProgramGraph.Graph.Removal

/-!
# Operations as data

A history of a graph is a list of operations.  `Operation.run` carries one out
and answers with an outcome; a refused operation answers with its error and
leaves the graph as it was.
-/

namespace ProgramGraph

/-- A request to change a graph. -/
inductive Operation where
  | create (kind : NodeKind) (contents : String) (first last : Nat) (key : SyntaxKey)
  | createDetached (kind : NodeKind) (contents : String) (first last : Nat)
  | addEdge (edge : Edge)
  | replaceAssociation (old new : NodeId)
  | removeNode (id : NodeId)
  | removeEdge (edge : Edge)
  | removeEdgeAt (slot : Slot)
  | prune
  deriving DecidableEq, Repr

/-- What an operation that was carried out answers. -/
inductive Outcome where
  | node (node : Node)
  | slot (slot : Slot)
  | edge (edge : Option Edge)
  | count (count : Nat)
  | done
  deriving DecidableEq, Repr

namespace Operation

/-- Carry out one operation. -/
def run (graph : Graph) : Operation → Except GraphError Outcome × Graph
  | create kind contents first last key =>
      let (node, next) := graph.create kind contents first last key
      (.ok (.node node), next)
  | createDetached kind contents first last =>
      let (node, next) := graph.createDetached kind contents first last
      (.ok (.node node), next)
  | addEdge edge =>
      match graph.addEdge edge.source edge.target edge.kind with
      | .ok (slot, next) => (.ok (.slot slot), next)
      | .error cause => (.error cause, graph)
  | replaceAssociation old new =>
      match graph.replaceAssociation old new with
      | .ok next => (.ok .done, next)
      | .error cause => (.error cause, graph)
  | removeNode id =>
      match graph.removeNode id with
      | .ok (node, next) => (.ok (.node node), next)
      | .error cause => (.error cause, graph)
  | removeEdge edge =>
      match graph.removeEdge edge with
      | .ok next => (.ok .done, next)
      | .error cause => (.error cause, graph)
  | removeEdgeAt slot =>
      match graph.removeEdgeAt slot with
      | some (edge, next) => (.ok (.edge (some edge)), next)
      | none => (.ok (.edge none), graph)
  | prune =>
      let (count, next) := graph.prune
      (.ok (.count count), next)

/-- Carry out a history, one operation after the other, whatever they answer. -/
def runAll (graph : Graph) (operations : List Operation) : Graph :=
  operations.foldl (fun graph operation => (operation.run graph).2) graph

@[simp]
theorem runAll_nil (graph : Graph) : runAll graph [] = graph :=
  rfl

@[simp]
theorem runAll_cons (graph : Graph) (operation : Operation) (rest : List Operation) :
    runAll graph (operation :: rest) = runAll (operation.run graph).2 rest :=
  rfl

theorem runAll_append (graph : Graph) (earlier later : List Operation) :
    runAll graph (earlier ++ later) = runAll (runAll graph earlier) later :=
  List.foldl_append

end Operation

end ProgramGraph
