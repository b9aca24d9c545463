import ProgramGraph.Proofs.Graph.Reload
import ProgramGraph.Proofs.Graph.Steps

/-!
# What removing an edge takes

An edge is removed from one slot.  Equal edges in other slots stay, and so do edges of other
kinds between the same nodes: the list of edges loses the one place that belongs to the slot.
A node keeps its neighbours and their order as long as an earlier edge leads to the same
neighbour.

An edge that was just added is in the last slot.  Taking it out again leaves an empty slot
behind, and perhaps an empty list of slots at a node that had none; no question shows either.
-/

namespace ProgramGraph

namespace Graph

variable {graph : Graph} {slot : Slot} {edge : Edge}

/-! ## The place of a slot in the list of edges -/

/-- The edges in the slots before this one. -/
def edgesBefore (graph : Graph) (slot : Slot) : List Edge :=
  (graph.slots.toList.take slot).filterMap id

/-- The edges in the slots behind this one. -/
def edgesAfter (graph : Graph) (slot : Slot) : List Edge :=
  (graph.slots.toList.drop (slot + 1)).filterMap id

theorem mem_edgesBefore :
    edge ∈ graph.edgesBefore slot ↔ ∃ earlier < slot, graph.edge? earlier = some edge := by
  have stored : ∀ place, (graph.slots.toList.take slot)[place]? = some (some edge) ↔
      place < slot ∧ graph.edge? place = some edge := by
    intro place
    rw [List.getElem?_take, edge?, Option.join_eq_some_iff, Array.getElem?_toList]
    split <;> simp [*]
  rw [edgesBefore, List.mem_filterMap]
  simp only [id_eq, exists_eq_right, List.mem_iff_getElem?, stored]

/-- The edge in a slot stands behind the edges of the slots before. -/
theorem edges_eq_of_live (live : graph.edge? slot = some edge) :
    graph.edges = graph.edgesBefore slot ++ edge :: graph.edgesAfter slot := by
  have inside : slot < graph.slots.toList.length := slot_lt_size live
  have stored : graph.slots.toList[slot] = some edge := by
    rw [edge?, Option.join_eq_some_iff, ← Array.getElem?_toList] at live
    exact (List.getElem?_eq_some_iff.mp live).2
  have split : graph.slots.toList =
      graph.slots.toList.take slot ++ some edge :: graph.slots.toList.drop (slot + 1) := by
    rw [← stored, List.getElem_cons_drop, List.take_append_drop]
  rw [edges, split, List.filterMap_append, List.filterMap_cons]
  rfl

theorem edges_discardSlot (live : graph.edge? slot = some edge) :
    (graph.discardSlot slot).edges = graph.edgesBefore slot ++ graph.edgesAfter slot := by
  have inside : slot < graph.slots.toList.length := slot_lt_size live
  rw [edges, slots_discardSlot, Array.toList_setIfInBounds, List.set_eq_take_append_cons_drop,
    if_pos inside, List.filterMap_append, List.filterMap_cons_none rfl]
  rfl

/-- When the earliest one of equal edges goes, it is the first of them in the list. -/
theorem edges_discardSlot_of_first (live : graph.edge? slot = some edge)
    (first : ∀ earlier < slot, graph.edge? earlier ≠ some edge) :
    (graph.discardSlot slot).edges = graph.edges.erase edge := by
  have absent : edge ∉ graph.edgesBefore slot := by
    intro member
    obtain ⟨earlier, before, same⟩ := mem_edgesBefore.mp member
    exact first earlier before same
  rw [edges_discardSlot live, edges_eq_of_live live, List.erase_append_right _ absent,
    List.erase_cons_head]

/-- Far ends of edges change only when the first edge goes that has one of them. -/
theorem eraseDups_map_discardSlot (live : graph.edge? slot = some edge) (keep : Edge → Bool)
    (far : Edge → NodeId)
    (repeated : keep edge → ∃ other ∈ graph.edgesBefore slot, keep other ∧ far other = far edge) :
    (((graph.discardSlot slot).edges.filter keep).map far).eraseDups =
      ((graph.edges.filter keep).map far).eraseDups := by
  rw [edges_discardSlot live, edges_eq_of_live live, List.filter_append, List.filter_append]
  by_cases kept : keep edge
  · obtain ⟨other, member, keptToo, same⟩ := repeated kept
    have earlier : far edge ∈ ((graph.edgesBefore slot).filter keep).map far :=
      List.mem_map.mpr ⟨other, List.mem_filter.mpr ⟨member, keptToo⟩, same⟩
    rw [List.filter_cons_of_pos kept, List.map_append, List.map_append, List.map_cons,
      eraseDups_append_cons earlier]
  · rw [List.filter_cons_of_neg kept]

/-! ## The removal as a whole -/

theorem removeEdgeAt_of_live (live : graph.edge? slot = some edge) :
    graph.removeEdgeAt slot = some (edge, graph.discardSlot slot) := by
  rw [removeEdgeAt_eq, live]
  rfl

/-- What is left of a graph when the edge is removed from one of its slots. -/
structure EmptiesExactly (graph : Graph) (slot : Slot) (edge : Edge) (rest : Graph) : Prop where
  /-- The slot is empty, and every other slot is as it was. -/
  edge?_eq : ∀ other, rest.edge? other = if other = slot then none else graph.edge? other
  size_slots : rest.slots.size = graph.slots.size
  /-- Of the list of edges the one place goes that belongs to the slot. -/
  edges_at : graph.edges[(graph.edgesBefore slot).length]? = some edge
  edges : rest.edges = graph.edges.eraseIdx (graph.edgesBefore slot).length
  edgeCount : rest.edgeCount + 1 = graph.edgeCount
  /-- Nodes, keys, lines and the next id are as they were. -/
  nodes : rest.nodes = graph.nodes
  associations : rest.associations = graph.associations
  keysOf : rest.keysOf = graph.keysOf
  sourceFile : rest.sourceFile = graph.sourceFile
  lines : rest.lines = graph.lines
  nextId : rest.nextId = graph.nextId
  /-- What is asked about a node is answered from the edges that are left, in their order. -/
  edgesIncidentTo : ∀ id, graph.contains id →
    rest.edgesIncidentTo id = .ok (rest.edges.filter (·.touches id))
  edgesBetween : ∀ source target, graph.contains source → graph.contains target →
    rest.edgesBetween source target =
      .ok (rest.edges.filter fun edge => edge.source == source && edge.target == target)
  successors : ∀ id kinds, graph.contains id →
    ∃ nodes, rest.successors id kinds = .ok nodes ∧ (∀ node ∈ nodes, node ∈ graph.nodes) ∧
      FirstOccurrences ((rest.edgesFrom id kinds).map (·.target)) (nodes.map (·.id))
  predecessors : ∀ id kinds, graph.contains id →
    ∃ nodes, rest.predecessors id kinds = .ok nodes ∧ (∀ node ∈ nodes, node ∈ graph.nodes) ∧
      FirstOccurrences ((rest.edgesInto id kinds).map (·.source)) (nodes.map (·.id))
  /-- A node has the same targets in the same order, unless the edge was its first one to a
  target. -/
  sameSuccessors : ∀ id kinds,
    (edge.source = id → admits kinds edge.kind →
      ∃ other ∈ graph.edgesBefore slot,
        other.source = id ∧ admits kinds other.kind ∧ other.target = edge.target) →
    rest.successors id kinds = graph.successors id kinds
  samePredecessors : ∀ id kinds,
    (edge.target = id → admits kinds edge.kind →
      ∃ other ∈ graph.edgesBefore slot,
        other.target = id ∧ admits kinds other.kind ∧ other.source = edge.source) →
    rest.predecessors id kinds = graph.predecessors id kinds

namespace Invariant

/-- A node keeps its targets and their order, unless the edge that goes was its first one to a
target. -/
theorem successors_discardSlot (invariant : graph.Invariant) (live : graph.edge? slot = some edge)
    (id : NodeId) (kinds : Option (List EdgeKind))
    (repeated : edge.source = id → admits kinds edge.kind →
      ∃ other ∈ graph.edgesBefore slot,
        other.source = id ∧ admits kinds other.kind ∧ other.target = edge.target) :
    (graph.discardSlot slot).successors id kinds = graph.successors id kinds := by
  have after := invariant.discardSlot slot
  have targets := eraseDups_map_discardSlot live
    (fun edge => edge.source == id && admits kinds edge.kind) (·.target)
  simp only [Bool.and_eq_true, beq_iff_eq, and_imp, and_assoc] at targets
  by_cases present : graph.contains id
  · have presentAfter := (contains_discardSlot graph slot id).trans present
    rw [after.successors_eq presentAfter, invariant.successors_eq present, edgesFrom, edgesFrom,
      targets repeated, funext (node?_discardSlot graph slot)]
  · rw [successors_of_not_contains present, successors_of_not_contains]
    rwa [contains_discardSlot]

/-- A node keeps its sources and their order, unless the edge that goes was its first one from a
source. -/
theorem predecessors_discardSlot (invariant : graph.Invariant)
    (live : graph.edge? slot = some edge) (id : NodeId) (kinds : Option (List EdgeKind))
    (repeated : edge.target = id → admits kinds edge.kind →
      ∃ other ∈ graph.edgesBefore slot,
        other.target = id ∧ admits kinds other.kind ∧ other.source = edge.source) :
    (graph.discardSlot slot).predecessors id kinds = graph.predecessors id kinds := by
  have after := invariant.discardSlot slot
  have sources := eraseDups_map_discardSlot live
    (fun edge => edge.target == id && admits kinds edge.kind) (·.source)
  simp only [Bool.and_eq_true, beq_iff_eq, and_imp, and_assoc] at sources
  by_cases present : graph.contains id
  · have presentAfter := (contains_discardSlot graph slot id).trans present
    rw [after.predecessors_eq presentAfter, invariant.predecessors_eq present, edgesInto,
      edgesInto, sources repeated, funext (node?_discardSlot graph slot)]
  · rw [predecessors_of_not_contains present, predecessors_of_not_contains]
    rwa [contains_discardSlot]

theorem emptiesExactly (invariant : graph.Invariant) (live : graph.edge? slot = some edge) :
    graph.EmptiesExactly slot edge (graph.discardSlot slot) := by
  have after := invariant.discardSlot slot
  have presentAfter {id : NodeId} (present : graph.contains id) :
      (graph.discardSlot slot).contains id :=
    (contains_discardSlot graph slot id).trans present
  obtain ⟨_, _, _, _, frame⟩ := graph.discardSlot_frame slot
  have nodes : (graph.discardSlot slot).nodes = graph.nodes := by rw [frame]
  constructor
  case edge?_eq => exact edge?_discardSlot graph slot
  case size_slots => rw [slots_discardSlot, Array.size_setIfInBounds]
  case edges_at =>
    rw [edges_eq_of_live live, List.getElem?_append_right (Nat.le_refl _), Nat.sub_self]
    rfl
  case edges =>
    rw [edges_discardSlot live, edges_eq_of_live live,
      List.eraseIdx_append_of_length_le (Nat.le_refl _), Nat.sub_self, List.eraseIdx_cons_zero]
  case edgeCount => exact invariant.toIndexed.liveCount_discardSlot live
  case nodes => exact nodes
  case associations => rw [frame]
  case keysOf => rw [frame]
  case sourceFile => rw [frame]
  case lines => rw [frame]
  case nextId => rw [frame]
  case edgesIncidentTo =>
    exact fun id present => after.edgesIncidentTo_eq (presentAfter present)
  case edgesBetween =>
    exact fun source target first second =>
      after.edgesBetween_eq (presentAfter first) (presentAfter second)
  case successors =>
    intro id kinds present
    rw [← nodes]
    exact after.exists_successors (presentAfter present) kinds
  case predecessors =>
    intro id kinds present
    rw [← nodes]
    exact after.exists_predecessors (presentAfter present) kinds
  case sameSuccessors => exact invariant.successors_discardSlot live
  case samePredecessors => exact invariant.predecessors_discardSlot live

end Invariant

/-! ## Taking back an edge that was added -/

/-- Graphs with the same record that agree on slots, keys and lines answer all questions
alike. -/
theorem SameRecord.answer_eq {copy : Graph} (same : SameRecord graph copy)
    (edge?_eq : copy.edge? = graph.edge?) (associations : copy.associations = graph.associations)
    (lines : copy.lines = graph.lines) (query : Query) :
    query.answer copy = query.answer graph := by
  have alike := same.indistinguishable
  cases query with
  | nodeForKey key =>
      rw [Query.answer, Query.answer, nodeForKey?, nodeForKey?, associations, same.node?]
  | identifiers =>
      rw [Query.answer, Query.answer, identifiers, identifiers, alike.nodes]
      simp only [alike.toIdentifier]
  | _ =>
      simp only [Query.answer, same.node?, same.contains, edge?_eq, lines, alike.nodes,
        alike.tokens, alike.astNodes, alike.comments, alike.symbols, alike.nodesOfKind, alike.root,
        alike.edges, alike.edgesOfKind, alike.edgesIncidentTo, alike.edgesBetween,
        alike.successors, alike.predecessors, alike.nodesBySpan, alike.toIdentifier,
        alike.sourceFile]

theorem edge?_pushEdge_size (graph : Graph) (edge : Edge) :
    (graph.pushEdge edge).edge? graph.slots.size = some edge :=
  (edge?_pushEdge _ _ _).trans (if_pos rfl)

/-- The graph after an edge was added and its slot emptied again. -/
theorem Invariant.sameRecord_pushEdge_discardSlot (invariant : graph.Invariant)
    (source : graph.contains edge.source) (target : graph.contains edge.target) :
    SameRecord graph ((graph.pushEdge edge).discardSlot graph.slots.size) := by
  have grown := invariant.pushEdge source target
  have live := graph.edge?_pushEdge_size edge
  have exactly := grown.emptiesExactly live
  refine ⟨invariant, grown.discardSlot _, ?_⟩
  have front : (graph.pushEdge edge).edgesBefore graph.slots.size = graph.edges := by
    rw [edgesBefore, Graph.pushEdge, Array.toList_push, List.take_left' Array.length_toList]
    rfl
  rw [toRecord, exactly.sourceFile, exactly.nodes, exactly.edges, front, edges_pushEdge,
    List.eraseIdx_append_of_length_le (Nat.le_refl _), Nat.sub_self, List.eraseIdx_cons_zero,
    List.append_nil]
  rfl

theorem edge?_pushEdge_discardSlot (graph : Graph) (edge : Edge) :
    ((graph.pushEdge edge).discardSlot graph.slots.size).edge? = graph.edge? := by
  funext slot
  rw [edge?_discardSlot, edge?_pushEdge]
  split
  · next last =>
    rw [last, edge?, Array.getElem?_eq_none (Nat.le_refl _)]
    rfl
  · rfl

/-! ## Edges of a reachable graph -/

/-- Edges are removed one at a time: the earliest of those that equal a given one, or the one
in a given slot. -/
structure TakesSingleEdges (graph : Graph) : Prop where
  removeEdge : ∀ edge ∈ graph.edges,
    ∃ slot rest, graph.edge? slot = some edge ∧
      (∀ earlier < slot, graph.edge? earlier ≠ some edge) ∧
      graph.removeEdge edge = .ok rest ∧ graph.EmptiesExactly slot edge rest ∧
      rest.edges = graph.edges.erase edge
  removeEdgeAt : ∀ slot edge, graph.edge? slot = some edge →
    ∃ rest, graph.removeEdgeAt slot = some (edge, rest) ∧ graph.EmptiesExactly slot edge rest
  /-- An edge that is added gets a slot, and when it is removed from this slot, nothing that
  can be asked shows that it was there. -/
  addEdge : ∀ edge, graph.contains edge.source → graph.contains edge.target →
    ∃ slot grown rest, graph.addEdge edge.source edge.target edge.kind = .ok (slot, grown) ∧
      grown.removeEdgeAt slot = some (edge, rest) ∧
      (∀ query : Query, query.answer rest = query.answer graph) ∧
      Indistinguishable graph rest

theorem takesSingleEdges_of_reachable (reachable : graph.Reachable) : graph.TakesSingleEdges := by
  have invariant := reachable.invariant
  constructor
  case removeEdge =>
    intro edge member
    cases removed : graph.removeEdge edge with
    | error cause =>
        exact absurd member (invariant.removeEdge_eq_error_iff.mp removed).1
    | ok rest =>
        obtain ⟨slot, live, first, rfl⟩ := invariant.removeEdge_eq_ok_iff.mp removed
        exact ⟨slot, _, live, first, rfl, invariant.emptiesExactly live,
          edges_discardSlot_of_first live first⟩
  case removeEdgeAt =>
    intro slot edge live
    exact ⟨_, removeEdgeAt_of_live live, invariant.emptiesExactly live⟩
  case addEdge =>
    intro edge source target
    have live := graph.edge?_pushEdge_size edge
    have same := invariant.sameRecord_pushEdge_discardSlot source target
    have exactly := (invariant.pushEdge source target).emptiesExactly live
    refine ⟨_, _, _, addEdge_eq_ok_iff.mpr ⟨source, target, rfl, rfl⟩,
      removeEdgeAt_of_live live, ?_, same.indistinguishable⟩
    exact same.answer_eq (edge?_pushEdge_discardSlot graph edge) exactly.associations
      exactly.lines

/-- Two equal edges, an edge of another kind beside them, an edge between them in the order
of slots, a loop and a slot that was emptied. -/
def parallels : Graph :=
  Operation.runAll (.empty "parallels" {})
    [.create .astRoot "" 0 1 10, .create .astElement "left" 0 1 11,
      .create .astElement "right" 0 1 12, .addEdge ⟨2, 1, .comment⟩, .addEdge ⟨0, 1, .astChild⟩,
      .addEdge ⟨0, 2, .astChild⟩, .addEdge ⟨0, 1, .astChild⟩, .addEdge ⟨0, 1, .lastUse⟩,
      .addEdge ⟨0, 0, .none⟩, .removeEdgeAt 0]

/-- The targets of node 0 change places when the earlier one of the equal edges goes, and not
when the later one goes. -/
theorem takesSingleEdges_parallels :
    parallels.Reachable ∧
      parallels.slots = #[none, some ⟨0, 1, .astChild⟩, some ⟨0, 2, .astChild⟩,
        some ⟨0, 1, .astChild⟩, some ⟨0, 1, .lastUse⟩, some ⟨0, 0, .none⟩] ∧
      (Query.successors 0 none).answer parallels = .ok (.ids [1, 2, 0]) ∧
      (Query.successors 0 none).answer (parallels.discardSlot 1) = .ok (.ids [2, 1, 0]) ∧
      (Query.successors 0 none).answer (parallels.discardSlot 3) = .ok (.ids [1, 2, 0]) ∧
      parallels.TakesSingleEdges := by
  have reachable : parallels.Reachable := (Reachable.empty _ _).runAll _
  exact ⟨reachable, by decide, rfl, rfl, rfl, takesSingleEdges_of_reachable reachable⟩

end Graph

end ProgramGraph
