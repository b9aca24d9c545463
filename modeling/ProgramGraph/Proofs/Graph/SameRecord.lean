import ProgramGraph.Proofs.Graph.Pruning
import ProgramGraph.Proofs.Graph.Questions
import ProgramGraph.Rendering

/-!
# Graphs with the same record

Two graphs with the same record may differ in much that a record leaves out: the
slots of their edges and the empty slots between them, their lists of slots, their
keys, the lines of their text and the id of the next node.  None of this can be seen
through questions about nodes and edges, in a drawing or in an export, as long as
both graphs have the invariant.  Taking a node out of both keeps their records equal,
so pruning cannot tell them apart either.
-/

namespace ProgramGraph

namespace Graph

/-- Two graphs, each with the invariant, that have the same record. -/
structure SameRecord (graph copy : Graph) : Prop where
  invariant : graph.Invariant
  invariant_copy : copy.Invariant
  toRecord : copy.toRecord = graph.toRecord

variable {graph copy : Graph} {id : NodeId}

namespace SameRecord

/-! ## Stored parts -/

theorem sourceFile (same : SameRecord graph copy) : copy.sourceFile = graph.sourceFile :=
  congrArg Record.sourceFile same.toRecord

theorem nodes (same : SameRecord graph copy) : copy.nodes = graph.nodes :=
  congrArg Record.nodes same.toRecord

theorem edges (same : SameRecord graph copy) : copy.edges = graph.edges :=
  congrArg Record.edges same.toRecord

/-- The counts agree because each of them is the number of edges. -/
theorem edgeCount (same : SameRecord graph copy) : copy.edgeCount = graph.edgeCount := by
  rw [Graph.edgeCount, Graph.edgeCount, same.invariant_copy.counted, same.invariant.counted,
    length_slotsWhere_true, length_slotsWhere_true, same.edges]

/-! ## Questions about nodes -/

theorem contains (same : SameRecord graph copy) (id : NodeId) :
    copy.contains id = graph.contains id := by
  rw [Graph.contains, Graph.contains, same.nodes]

theorem node? (same : SameRecord graph copy) : copy.node? = graph.node? := by
  funext id
  rw [Graph.node?, Graph.node?, same.nodes]

theorem require (same : SameRecord graph copy) (id : NodeId) :
    copy.require id = graph.require id := by
  rw [Graph.require, Graph.require, same.contains]

theorem nodesOfKind (same : SameRecord graph copy) (kinds : List NodeKind) :
    copy.nodesOfKind kinds = graph.nodesOfKind kinds := by
  rw [Graph.nodesOfKind, Graph.nodesOfKind, same.nodes]

theorem root (same : SameRecord graph copy) : copy.root = graph.root := by
  rw [Graph.root, Graph.root, same.nodesOfKind, same.sourceFile]

/-! ## Questions about edges -/

theorem edgesIncidentTo (same : SameRecord graph copy) (id : NodeId) :
    copy.edgesIncidentTo id = graph.edgesIncidentTo id := by
  by_cases present : graph.contains id
  · have presentInCopy : copy.contains id := (same.contains id).trans present
    rw [same.invariant.edgesIncidentTo_eq present,
      same.invariant_copy.edgesIncidentTo_eq presentInCopy, same.edges]
  · have absentInCopy : ¬copy.contains id := by rwa [same.contains]
    rw [edgesIncidentTo_of_not_contains present, edgesIncidentTo_of_not_contains absentInCopy]

theorem edgesBetween (same : SameRecord graph copy) (source target : NodeId) :
    copy.edgesBetween source target = graph.edgesBetween source target := by
  simp only [Graph.edgesBetween, same.require, same.invariant.filterMap_slotsFrom,
    same.invariant_copy.filterMap_slotsFrom, same.edges]

theorem successors (same : SameRecord graph copy) (id : NodeId)
    (kinds : Option (List EdgeKind)) :
    copy.successors id kinds = graph.successors id kinds := by
  simp only [Graph.successors, same.require, same.invariant.filterMap_slotsFrom,
    same.invariant_copy.filterMap_slotsFrom, same.edges, same.node?]

theorem predecessors (same : SameRecord graph copy) (id : NodeId)
    (kinds : Option (List EdgeKind)) :
    copy.predecessors id kinds = graph.predecessors id kinds := by
  simp only [Graph.predecessors, same.require, same.invariant.filterMap_slotsInto,
    same.invariant_copy.filterMap_slotsInto, same.edges, same.node?]

theorem toIdentifier (same : SameRecord graph copy) (id : NodeId) :
    copy.toIdentifier id = graph.toIdentifier id := by
  rw [Graph.toIdentifier, Graph.toIdentifier, same.node?, same.successors]

/-! ## Drawings and exports -/

theorem childrenOf (same : SameRecord graph copy) :
    Dot.childrenOf copy = Dot.childrenOf graph := by
  funext node
  rw [Dot.childrenOf, Dot.childrenOf, same.successors]

/-- The walk through the layers looks at a graph only through the children of its
nodes. -/
theorem layersFrom (same : SameRecord graph copy) (bound : Nat) (shown layer : List Node) :
    Dot.layersFrom copy bound shown layer = Dot.layersFrom graph bound shown layer := by
  induction bound generalizing shown layer with
  | zero => rfl
  | succ bound ih => simp only [Dot.layersFrom, same.childrenOf, ih]

theorem drawing (same : SameRecord graph copy) :
    Dot.Document.ofGraph copy = Dot.Document.ofGraph graph := by
  simp only [Dot.Document.ofGraph, Dot.layers, same.root, same.nodes, same.edges,
    same.layersFrom, comments, symbols, tokens, same.nodesOfKind]

theorem content (same : SameRecord graph copy) (rendering : Rendering) :
    rendering.content copy = rendering.content graph := by
  simp only [Rendering.content, same.drawing, same.toRecord]

/-! ## Pruning -/

theorem withoutNode (same : SameRecord graph copy) (present : graph.contains id) :
    SameRecord (graph.withoutNode id) (copy.withoutNode id) := by
  have presentInCopy : copy.contains id := (same.contains id).trans present
  constructor
  · exact same.invariant.withoutNode present
  · exact same.invariant_copy.withoutNode presentInCopy
  · simp only [Graph.toRecord, sourceFile_withoutNode, nodes_withoutNode,
      edges_withoutNode same.invariant.toIndexed present,
      edges_withoutNode same.invariant_copy.toIndexed presentInCopy, same.sourceFile,
      same.nodes, same.edges]

/-- The leaves agree because a leaf is a node that is the source of no edge. -/
theorem prunableLeaves (same : SameRecord graph copy) :
    copy.prunableLeaves = graph.prunableLeaves := by
  have leaf : copy.isPrunableLeaf = graph.isPrunableLeaf := by
    funext node
    rw [isPrunableLeaf, isPrunableLeaf]
    congr 1
    rw [Bool.eq_iff_iff, List.isEmpty_iff, List.isEmpty_iff,
      same.invariant_copy.slotsFrom_eq_nil_iff, same.invariant.slotsFrom_eq_nil_iff, same.edges]
  rw [Graph.prunableLeaves, Graph.prunableLeaves, leaf, same.nodes]

end SameRecord

/-- Two states of pruning with equal counts and equal records. -/
structure SameProgress (state other : Nat × Graph) : Prop where
  count : other.1 = state.1
  same : SameRecord state.2 other.2

namespace SameProgress

variable {state other : Nat × Graph}

/-- A step removes the node from both graphs or from neither. -/
theorem pruneNode (progress : SameProgress state other) (id : NodeId) :
    SameProgress (Graph.pruneNode state id) (Graph.pruneNode other id) := by
  obtain ⟨count, graph⟩ := state
  obtain ⟨countOfCopy, copy⟩ := other
  obtain ⟨counted, same⟩ := progress
  by_cases present : graph.contains id
  · have presentInCopy : copy.contains id := (same.contains id).trans present
    rw [pruneNode_of_contains present, pruneNode_of_contains presentInCopy]
    exact ⟨congrArg (· + 1) counted, same.withoutNode present⟩
  · have absent : graph.node? id = none := node?_eq_none_iff.mpr present
    have absentInCopy : copy.node? id = none := by rw [same.node?, absent]
    simp only [Graph.pruneNode, removeNode, absent, absentInCopy]
    exact ⟨counted, same⟩

theorem pruneRounds (progress : SameProgress state other) (rounds : Nat) :
    SameProgress (Graph.pruneRounds rounds state) (Graph.pruneRounds rounds other) := by
  induction rounds generalizing state other with
  | zero => exact progress
  | succ rounds ih =>
      rw [pruneRounds_succ, pruneRounds_succ, progress.same.prunableLeaves]
      cases state.2.prunableLeaves with
      | nil => exact progress
      | cons first rest =>
          exact ih (List.foldl_rel progress fun id _ _ _ earlier => earlier.pruneNode id)

end SameProgress

/-- Pruning removes as many nodes from both graphs and leaves the same record. -/
theorem SameRecord.prune (same : SameRecord graph copy) :
    SameProgress graph.prune copy.prune := by
  have start : SameProgress (0, graph) (0, copy) := ⟨rfl, same⟩
  rw [Graph.prune, Graph.prune, same.nodes]
  exact start.pruneRounds graph.nodes.length

end Graph

end ProgramGraph
