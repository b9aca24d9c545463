import ProgramGraph.Proofs.Graph.Questions
import ProgramGraph.Proofs.Graph.Steps

/-!
# What removing a node takes

A node goes with every edge that touches it and with every key that stands for it, and
nothing else goes.  The edges that are left stay in their slots, so they keep their order,
and so do the neighbours of every other node: one that had the node among its neighbours has
it no more, and all others of its neighbours are where they were.

A loop stands in the list of slots that leave the node and in the list of those that enter
it; it is one slot all the same, and counts once.
-/

namespace ProgramGraph.Graph

variable {graph : Graph} {id other : NodeId}

/-! ## Edges of the other nodes -/

namespace Invariant

/-- The edges that leave another node stay, those to the removed node apart. -/
theorem edgesFrom_withoutNode (invariant : graph.Invariant) (present : graph.contains id)
    (different : other ≠ id) (kinds : Option (List EdgeKind)) :
    (graph.withoutNode id).edgesFrom other kinds =
      (graph.edgesFrom other kinds).filter (·.target ≠ id) := by
  rw [edgesFrom, edgesFrom, edges_withoutNode invariant.toIndexed present, List.filter_filter,
    List.filter_filter]
  apply List.filter_congr
  intro edge _
  rw [Bool.eq_iff_iff]
  simp only [Edge.touches, Bool.and_eq_true, Bool.not_eq_true', Bool.or_eq_false_iff,
    beq_iff_eq, beq_eq_false_iff_ne, decide_eq_true_iff]
  constructor
  · rintro ⟨⟨leaves, admitted⟩, -, elsewhere⟩
    exact ⟨elsewhere, leaves, admitted⟩
  · rintro ⟨elsewhere, leaves, admitted⟩
    exact ⟨⟨leaves, admitted⟩, leaves ▸ different, elsewhere⟩

theorem edgesInto_withoutNode (invariant : graph.Invariant) (present : graph.contains id)
    (different : other ≠ id) (kinds : Option (List EdgeKind)) :
    (graph.withoutNode id).edgesInto other kinds =
      (graph.edgesInto other kinds).filter (·.source ≠ id) := by
  rw [edgesInto, edgesInto, edges_withoutNode invariant.toIndexed present, List.filter_filter,
    List.filter_filter]
  apply List.filter_congr
  intro edge _
  rw [Bool.eq_iff_iff]
  simp only [Edge.touches, Bool.and_eq_true, Bool.not_eq_true', Bool.or_eq_false_iff,
    beq_iff_eq, beq_eq_false_iff_ne, decide_eq_true_iff]
  constructor
  · rintro ⟨⟨enters, admitted⟩, elsewhere, -⟩
    exact ⟨elsewhere, enters, admitted⟩
  · rintro ⟨elsewhere, enters, admitted⟩
    exact ⟨⟨enters, admitted⟩, elsewhere, enters ▸ different⟩

end Invariant

/-- Among the nodes at the ends of edges, the removed one is left out and all others are
found as before. -/
theorem filterMap_node?_withoutNode (graph : Graph) (id : NodeId) (ends : List NodeId) :
    (ends.filter (· ≠ id)).eraseDups.filterMap (graph.withoutNode id).node? =
      (ends.eraseDups.filterMap graph.node?).filter (·.id ≠ id) := by
  rw [eraseDups_filter, List.filterMap_filter, List.filter_filterMap]
  apply List.filterMap_congr
  intro found _
  rw [node?_withoutNode]
  cases held : graph.node? found with
  | none => simp
  | some node =>
      have own := id_of_node? held
      by_cases same : found = id <;> simp [Option.filter, own, same]

/-! ## The removal as a whole -/

/-- What is left of a graph when one of its nodes is removed, by what was there before. -/
structure RemovesExactly (graph : Graph) (id : NodeId) (rest : Graph) : Prop where
  nodes : rest.nodes = graph.nodes.filter (·.id ≠ id)
  nextId : rest.nextId = graph.nextId
  /-- A slot keeps its number and its edge, unless the edge touches the node. -/
  edge?_eq : ∀ slot, rest.edge? slot = (graph.edge? slot).filter (!·.touches id)
  size_slots : rest.slots.size = graph.slots.size
  edges : rest.edges = graph.edges.filter (!·.touches id)
  /-- Every slot with an edge that touches the node is listed once here, also that of a
  loop. -/
  edgeCount : rest.edgeCount + (graph.slotsWhere (·.touches id)).length = graph.edgeCount
  successors : ∀ other kinds, graph.contains other → other ≠ id →
    ∃ nodes, graph.successors other kinds = .ok nodes ∧
      rest.successors other kinds = .ok (nodes.filter (·.id ≠ id))
  predecessors : ∀ other kinds, graph.contains other → other ≠ id →
    ∃ nodes, graph.predecessors other kinds = .ok nodes ∧
      rest.predecessors other kinds = .ok (nodes.filter (·.id ≠ id))
  edgesIncidentTo : ∀ other, graph.contains other → other ≠ id →
    ∃ edges, graph.edgesIncidentTo other = .ok edges ∧
      rest.edgesIncidentTo other = .ok (edges.filter (!·.touches id))
  /-- Only the keys of the node are forgotten. -/
  keyMap : rest.keyMap = graph.keyMap.forget id
  nodeForKey? : ∀ key, graph.keyMap key ≠ some id →
    rest.nodeForKey? key = graph.nodeForKey? key

namespace Invariant

/-- The number of edges falls by the number of slots that touch the node. -/
theorem edgeCount_withoutNode (invariant : graph.Invariant) (present : graph.contains id) :
    (graph.withoutNode id).edgeCount + (graph.slotsWhere (·.touches id)).length =
      graph.edgeCount := by
  have left := (invariant.withoutNode present).counted
  rw [length_slotsWhere_true, edges_withoutNode invariant.toIndexed present] at left
  have all := invariant.counted
  rw [length_slotsWhere_true] at all
  rw [edgeCount, edgeCount, left, all, length_slotsWhere, Nat.add_comm]
  exact (List.length_eq_length_filter_add _).symm

theorem removesExactly (invariant : graph.Invariant) (present : graph.contains id) :
    graph.RemovesExactly id (graph.withoutNode id) := by
  have rest := invariant.withoutNode present
  have presentIn {other : NodeId} (inside : graph.contains other) (different : other ≠ id) :
      (graph.withoutNode id).contains other :=
    (contains_withoutNode graph id other).mpr ⟨inside, different⟩
  constructor
  case nodes => exact nodes_withoutNode graph id
  case nextId => exact nextId_withoutNode graph id
  case edge?_eq => exact edge?_withoutNode invariant.toIndexed present
  case size_slots => exact size_slots_withoutNode graph id
  case edges => exact edges_withoutNode invariant.toIndexed present
  case edgeCount => exact invariant.edgeCount_withoutNode present
  case successors =>
    intro other kinds inside different
    refine ⟨_, invariant.successors_eq inside kinds, ?_⟩
    rw [rest.successors_eq (presentIn inside different),
      invariant.edgesFrom_withoutNode present different, ← filterMap_node?_withoutNode,
      List.filter_map]
    rfl
  case predecessors =>
    intro other kinds inside different
    refine ⟨_, invariant.predecessors_eq inside kinds, ?_⟩
    rw [rest.predecessors_eq (presentIn inside different),
      invariant.edgesInto_withoutNode present different, ← filterMap_node?_withoutNode,
      List.filter_map]
    rfl
  case edgesIncidentTo =>
    intro other inside different
    refine ⟨_, invariant.edgesIncidentTo_eq inside, ?_⟩
    rw [rest.edgesIncidentTo_eq (presentIn inside different),
      edges_withoutNode invariant.toIndexed present, List.filter_filter, List.filter_filter]
    simp only [Bool.and_comm]
  case keyMap => exact invariant.toKeyed.keyMap_withoutNode id
  case nodeForKey? =>
    intro key elsewhere
    have stored : (graph.withoutNode id).associations.get? key = graph.associations.get? key := by
      rw [get?_associations_withoutNode, if_neg]
      exact mt invariant.toKeyed.mem_keys.mp elsewhere
    rw [Graph.nodeForKey?, Graph.nodeForKey?, stored]
    cases at' : graph.associations.get? key with
    | none => rfl
    | some found =>
        have different : found ≠ id := by
          rintro rfl
          exact elsewhere at'
        rw [Option.bind_some, Option.bind_some, node?_withoutNode, if_neg different]

end Invariant

/-- Removing a node of a reachable graph answers with the node and takes nothing but the node,
the edges that touch it and its keys. -/
theorem removesExactly_of_reachable (reachable : graph.Reachable) {node : Node}
    (member : node ∈ graph.nodes) :
    ∃ rest, graph.removeNode node.id = .ok (node, rest) ∧
      graph.RemovesExactly node.id rest := by
  have invariant := reachable.invariant
  have found : graph.node? node.id = some node := invariant.node?_eq_some_iff.mpr ⟨member, rfl⟩
  exact ⟨_, removeNode_eq_ok_iff.mpr ⟨found, rfl⟩,
    invariant.removesExactly (contains_of_node? found)⟩

/-- Three nodes, the middle one with a loop, with parallel edges in both directions and with
two keys; its neighbours have a loop and an edge of their own. -/
def crossing : Graph :=
  Operation.runAll (.empty "crossing" {})
    [.create .astRoot "" 0 1 10, .create .astElement "middle" 0 1 11,
      .create .token "end" 0 1 12, .addEdge ⟨0, 1, .astChild⟩, .addEdge ⟨1, 1, .lastUse⟩,
      .addEdge ⟨1, 2, .none⟩, .addEdge ⟨0, 2, .astChild⟩, .addEdge ⟨1, 2, .none⟩,
      .addEdge ⟨2, 1, .comment⟩, .addEdge ⟨2, 2, .lastUse⟩, .addEdge ⟨0, 1, .none⟩,
      .replaceAssociation 0 1]

theorem removesExactly_crossing :
    crossing.Reachable ∧ ⟨1, .astElement, "middle", 0, 1, 1, 1⟩ ∈ crossing.nodes ∧
      crossing.edgeCount = 8 ∧ crossing.slotsWhere (·.touches 1) = [0, 1, 2, 4, 5, 7] ∧
      ∃ rest, crossing.removeNode 1 = .ok (⟨1, .astElement, "middle", 0, 1, 1, 1⟩, rest) ∧
        crossing.RemovesExactly 1 rest := by
  have reachable : crossing.Reachable := (Reachable.empty _ _).runAll _
  have member : ⟨1, .astElement, "middle", 0, 1, 1, 1⟩ ∈ crossing.nodes := by decide
  exact ⟨reachable, member, by decide, by decide, removesExactly_of_reachable reachable member⟩

end ProgramGraph.Graph
