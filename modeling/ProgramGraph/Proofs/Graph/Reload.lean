import ProgramGraph.Proofs.Graph.SameRecord

/-!
# Storing a graph and loading it again

Nodes are stored by ascending id, so that each stored node is loaded behind those
before it and nothing is refused as long as the ids leave room for a later one.  Then
come the edges, whose ends are among the nodes.  The loaded graph is a different one,
without empty slots and without keys, but it has the same record.
-/

namespace ProgramGraph

namespace Graph

variable {graph : Graph}

/-! ## Loading what was stored -/

/-- Nodes with ascending ids are loaded behind each other. -/
theorem foldlM_loadNode (graph : Graph) (nodes : List Node)
    (ascend : (graph.nodes ++ nodes).Pairwise (·.id < ·.id))
    (bounded : ∀ node ∈ nodes, node.id < idBound) :
    ∃ nextId, nodes.foldlM loadNode graph =
      .ok { graph with nodes := graph.nodes ++ nodes, nextId } := by
  induction nodes generalizing graph with
  | nil =>
      refine ⟨graph.nextId, ?_⟩
      rw [List.append_nil]
      rfl
  | cons node rest ih =>
      obtain ⟨small, bounded⟩ := List.forall_mem_cons.mp bounded
      -- All nodes loaded so far have smaller ids, so this one goes behind them.
      have greatest : ∀ other ∈ graph.nodes, other.id < node.id := by
        intro other member
        exact (List.pairwise_append.mp ascend).2.2 other member node List.mem_cons_self
      have fresh : ¬graph.contains node.id := by
        intro taken
        obtain ⟨other, member, same⟩ := contains_iff.mp taken
        exact Nat.ne_of_lt (greatest other member) same
      rw [List.append_cons] at ascend ⊢
      rw [List.foldlM_cons, loadNode_eq_ok_iff.mpr ⟨fresh, small, rfl⟩,
        insertById_eq_append greatest]
      exact ih _ ascend bounded

/-- Edges between nodes of the graph are put behind each other. -/
theorem foldlM_loadEdge (graph : Graph) (edges : List Edge)
    (ends : ∀ edge ∈ edges, graph.contains edge.source ∧ graph.contains edge.target) :
    ∃ last, edges.foldlM loadEdge graph = .ok last ∧ last.sourceFile = graph.sourceFile ∧
      last.nodes = graph.nodes ∧ last.edges = graph.edges ++ edges := by
  induction edges generalizing graph with
  | nil => exact ⟨graph, rfl, rfl, rfl, (List.append_nil _).symm⟩
  | cons edge rest ih =>
      obtain ⟨⟨source, target⟩, ends⟩ := List.forall_mem_cons.mp ends
      obtain ⟨last, loaded, sourceFile, nodes, edges⟩ :=
        ih (graph.pushEdge edge) ends
      refine ⟨last, ?_, sourceFile, nodes, ?_⟩
      · rw [List.foldlM_cons, loadEdge_eq_ok_iff.mpr ⟨source, target, rfl⟩]
        exact loaded
      · rw [edges, edges_pushEdge, List.append_assoc, List.singleton_append]

theorem Invariant.ofRecord_toRecord (invariant : graph.Invariant)
    (bounded : ∀ node ∈ graph.nodes, node.id < idBound) :
    ∃ copy, Graph.ofRecord graph.toRecord = .ok copy ∧ SameRecord graph copy := by
  obtain ⟨nextId, nodesOnly⟩ :=
    foldlM_loadNode (.empty graph.sourceFile {}) graph.nodes invariant.ids_ascend bounded
  obtain ⟨copy, loaded, sourceFile, nodes, edges⟩ :=
    foldlM_loadEdge { Graph.empty graph.sourceFile {} with nodes := graph.nodes, nextId }
      graph.edges fun edge member => invariant.ends_of_mem_edges member
  have reloaded : Graph.ofRecord graph.toRecord = .ok copy :=
    ofRecord_eq_ok_iff.mpr ⟨_, nodesOnly, loaded⟩
  refine ⟨copy, reloaded, invariant, .ofRecord reloaded, ?_⟩
  rw [toRecord, sourceFile, nodes, edges]
  rfl

/-! ## What a loaded graph answers -/

/-- All questions about files, nodes and edges have the same answers or the same
errors, everything that is written is the same, and pruning does the same. -/
structure Indistinguishable (graph copy : Graph) : Prop where
  toRecord : copy.toRecord = graph.toRecord
  sourceFile : copy.sourceFile = graph.sourceFile
  nodes : copy.nodes = graph.nodes
  nodesOfKind : ∀ kinds, copy.nodesOfKind kinds = graph.nodesOfKind kinds
  root : copy.root = graph.root
  tokens : copy.tokens = graph.tokens
  astNodes : copy.astNodes = graph.astNodes
  comments : copy.comments = graph.comments
  symbols : copy.symbols = graph.symbols
  edges : copy.edges = graph.edges
  edgesOfKind : ∀ kind, copy.edgesOfKind kind = graph.edgesOfKind kind
  nodeCount : copy.nodeCount = graph.nodeCount
  edgeCount : copy.edgeCount = graph.edgeCount
  edgesIncidentTo : ∀ id, copy.edgesIncidentTo id = graph.edgesIncidentTo id
  edgesBetween : ∀ source target,
    copy.edgesBetween source target = graph.edgesBetween source target
  successors : ∀ id kinds, copy.successors id kinds = graph.successors id kinds
  predecessors : ∀ id kinds, copy.predecessors id kinds = graph.predecessors id kinds
  nodesBySpan : ∀ first last, copy.nodesBySpan first last = graph.nodesBySpan first last
  toIdentifier : ∀ id, copy.toIdentifier id = graph.toIdentifier id
  content : ∀ rendering : Rendering, rendering.content copy = rendering.content graph
  /-- Pruning removes equally many nodes. -/
  pruneCount : copy.prune.1 = graph.prune.1
  pruneRecord : copy.prune.2.toRecord = graph.prune.2.toRecord

theorem SameRecord.indistinguishable {copy : Graph} (same : SameRecord graph copy) :
    Indistinguishable graph copy where
  toRecord := same.toRecord
  sourceFile := same.sourceFile
  nodes := same.nodes
  nodesOfKind := same.nodesOfKind
  root := same.root
  tokens := same.nodesOfKind _
  astNodes := same.nodesOfKind _
  comments := same.nodesOfKind _
  symbols := same.nodesOfKind _
  edges := same.edges
  edgesOfKind kind := by rw [edgesOfKind, edgesOfKind, same.edges]
  nodeCount := by rw [nodeCount, nodeCount, same.nodes]
  edgeCount := same.edgeCount
  edgesIncidentTo := same.edgesIncidentTo
  edgesBetween := same.edgesBetween
  successors := same.successors
  predecessors := same.predecessors
  nodesBySpan first last := by rw [nodesBySpan, nodesBySpan, same.nodes]
  toIdentifier := same.toIdentifier
  content := same.content
  pruneCount := same.prune.count
  pruneRecord := same.prune.same.toRecord

/-- The record of a reachable graph is loaded into a graph that cannot be told from it. -/
theorem reload_of_reachable (reachable : graph.Reachable)
    (bounded : ∀ node ∈ graph.nodes, node.id < idBound) :
    ∃ copy, ofRecord graph.toRecord = .ok copy ∧ Indistinguishable graph copy := by
  obtain ⟨copy, loaded, same⟩ := reachable.invariant.ofRecord_toRecord bounded
  exact ⟨copy, loaded, same.indistinguishable⟩

theorem reload_sample :
    sample.Reachable ∧ (∀ node ∈ sample.nodes, node.id < idBound) ∧
      ∃ copy, ofRecord sample.toRecord = .ok copy ∧ Indistinguishable sample copy := by
  have bounded : ∀ node ∈ sample.nodes, node.id < idBound := by decide
  exact ⟨reachable_sample, bounded, reload_of_reachable reachable_sample bounded⟩

end Graph

end ProgramGraph
