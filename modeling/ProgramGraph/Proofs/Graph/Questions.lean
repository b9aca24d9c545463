import ProgramGraph.Proofs.Distinct
import ProgramGraph.Proofs.Graph.Reachable

/-!
# Questions answered from the indexes

Questions about the edges of a node are answered from its lists of slots, without a
look at the other edges.  The answers are those of a scan of all edges in the order
in which they were added: the edges themselves, the nodes at their other ends at the
first edge that leads there, and the first identifier that a node is linked to.
-/

namespace ProgramGraph.Graph

variable {graph : Graph} {id source target : NodeId}

/-- The edges that leave a node and whose kind passes a filter. -/
def edgesFrom (graph : Graph) (id : NodeId) (kinds : Option (List EdgeKind)) : List Edge :=
  graph.edges.filter fun edge => edge.source == id && admits kinds edge.kind

/-- The edges that enter a node and whose kind passes a filter. -/
def edgesInto (graph : Graph) (id : NodeId) (kinds : Option (List EdgeKind)) : List Edge :=
  graph.edges.filter fun edge => edge.target == id && admits kinds edge.kind

/-- Whether an edge links a node to an identifier. -/
def linksIdentifier (graph : Graph) (id : NodeId) (edge : Edge) : Bool :=
  edge.source == id && edge.kind == .associatedToken &&
    (graph.node? edge.target).any (·.kind == .identifierToken)

theorem exists_identifier_of_linksIdentifier {edge : Edge}
    (links : graph.linksIdentifier id edge) :
    ∃ token, graph.node? edge.target = some token ∧ token.kind = .identifierToken := by
  simp only [linksIdentifier, Bool.and_eq_true, Option.any_eq_true, beq_iff_eq] at links
  obtain ⟨_, token, atTarget, identifier⟩ := links
  exact ⟨token, atTarget, identifier⟩

/-! ## Ids that are not in the graph -/

theorem edgesIncidentTo_of_not_contains (absent : ¬graph.contains id) :
    graph.edgesIncidentTo id = .error (.unknownNode id) := by
  rw [edgesIncidentTo, require_of_not_contains absent]
  rfl

theorem successors_of_not_contains (absent : ¬graph.contains id)
    (kinds : Option (List EdgeKind)) :
    graph.successors id kinds = .error (.unknownNode id) := by
  rw [successors, require_of_not_contains absent]
  rfl

theorem predecessors_of_not_contains (absent : ¬graph.contains id)
    (kinds : Option (List EdgeKind)) :
    graph.predecessors id kinds = .error (.unknownNode id) := by
  rw [predecessors, require_of_not_contains absent]
  rfl

theorem toIdentifier_of_not_contains (absent : ¬graph.contains id) :
    graph.toIdentifier id = .error (.unknownNode id) := by
  rw [toIdentifier, node?_eq_none_iff.mpr absent]

theorem edgesBetween_of_not_contains_source (absent : ¬graph.contains source)
    (target : NodeId) : graph.edgesBetween source target = .error (.unknownNode source) := by
  rw [edgesBetween, require_of_not_contains absent]
  rfl

theorem edgesBetween_of_not_contains_target (present : graph.contains source)
    (absent : ¬graph.contains target) :
    graph.edgesBetween source target = .error (.unknownNode target) := by
  rw [edgesBetween, require_of_contains present, require_of_not_contains absent]
  rfl

/-! ## Ids and nodes -/

/-- Looking up ids of the graph gives nodes with just these ids. -/
theorem map_id_filterMap_node? {ids : List NodeId}
    (present : ∀ id ∈ ids, graph.contains id) :
    (ids.filterMap graph.node?).map (·.id) = ids := by
  induction ids with
  | nil => rfl
  | cons id rest ih =>
      obtain ⟨here, present⟩ := List.forall_mem_cons.mp present
      cases found : graph.node? id with
      | none => exact absurd here (node?_eq_none_iff.mp found)
      | some node =>
          rw [List.filterMap_cons_some found, List.map_cons, ih present, id_of_node? found]

/-- Looking up the distinct ends of edges gives nodes of the graph, in the order of
the first edge that leads to each. -/
theorem firstOccurrences_nodes {ids : List NodeId} (present : ∀ id ∈ ids, graph.contains id) :
    (∀ node ∈ ids.eraseDups.filterMap graph.node?, node ∈ graph.nodes) ∧
      FirstOccurrences ids ((ids.eraseDups.filterMap graph.node?).map (·.id)) := by
  constructor
  · intro node member
    obtain ⟨id, _, found⟩ := List.mem_filterMap.mp member
    exact mem_of_node? found
  · rw [map_id_filterMap_node? fun id member => present id (List.mem_eraseDups.mp member)]
    exact firstOccurrences_eraseDups ids

namespace Invariant

theorem ends_of_mem_edges (invariant : graph.Invariant) {edge : Edge}
    (member : edge ∈ graph.edges) : graph.contains edge.source ∧ graph.contains edge.target := by
  obtain ⟨slot, live⟩ := mem_edges.mp member
  exact invariant.ends_mem slot edge live

theorem filterMap_slotsFrom (invariant : graph.Invariant) (id : NodeId) :
    (graph.slotsFrom id).filterMap graph.edge? = graph.edges.filter (·.source == id) := by
  rw [invariant.slotsFrom_eq, filterMap_edge?_slotsWhere]

theorem filterMap_slotsInto (invariant : graph.Invariant) (id : NodeId) :
    (graph.slotsInto id).filterMap graph.edge? = graph.edges.filter (·.target == id) := by
  rw [invariant.slotsInto_eq, filterMap_edge?_slotsWhere]

/-! ## Edges -/

theorem edgesIncidentTo_eq (invariant : graph.Invariant) (present : graph.contains id) :
    graph.edgesIncidentTo id = .ok (graph.edges.filter (·.touches id)) := by
  have slots : (graph.incidentSlots id).mergeSort.eraseReps =
      graph.slotsWhere (·.touches id) := by
    apply eraseReps_mergeSort_eq (slotsWhere_ascend graph _)
    intro slot
    rw [invariant.toIndexed.mem_incidentSlots present, mem_slotsWhere]
  rw [edgesIncidentTo, require_of_contains present, slots, filterMap_edge?_slotsWhere]
  rfl

theorem edgesBetween_eq (invariant : graph.Invariant) (first : graph.contains source)
    (second : graph.contains target) :
    graph.edgesBetween source target =
      .ok (graph.edges.filter fun edge => edge.source == source && edge.target == target) := by
  rw [edgesBetween, require_of_contains first, require_of_contains second,
    invariant.filterMap_slotsFrom, List.filter_filter]
  simp only [Bool.and_comm]
  rfl

/-! ## Nodes -/

theorem successors_eq (invariant : graph.Invariant) (present : graph.contains id)
    (kinds : Option (List EdgeKind)) :
    graph.successors id kinds =
      .ok (((graph.edgesFrom id kinds).map (·.target)).eraseDups.filterMap graph.node?) := by
  rw [successors, require_of_contains present, invariant.filterMap_slotsFrom,
    List.filter_filter, edgesFrom]
  simp only [Bool.and_comm]
  rfl

theorem predecessors_eq (invariant : graph.Invariant) (present : graph.contains id)
    (kinds : Option (List EdgeKind)) :
    graph.predecessors id kinds =
      .ok (((graph.edgesInto id kinds).map (·.source)).eraseDups.filterMap graph.node?) := by
  rw [predecessors, require_of_contains present, invariant.filterMap_slotsInto,
    List.filter_filter, edgesInto]
  simp only [Bool.and_comm]
  rfl

/-- Each target of a node comes once, at the place of the first edge that leads to it. -/
theorem exists_successors (invariant : graph.Invariant) (present : graph.contains id)
    (kinds : Option (List EdgeKind)) :
    ∃ nodes, graph.successors id kinds = .ok nodes ∧ (∀ node ∈ nodes, node ∈ graph.nodes) ∧
      FirstOccurrences ((graph.edgesFrom id kinds).map (·.target)) (nodes.map (·.id)) := by
  refine ⟨_, invariant.successors_eq present kinds, firstOccurrences_nodes ?_⟩
  intro target member
  obtain ⟨edge, listed, rfl⟩ := List.mem_map.mp member
  exact (invariant.ends_of_mem_edges (List.mem_filter.mp listed).1).2

/-- Each source of a node comes once, at the place of the first edge that comes from it. -/
theorem exists_predecessors (invariant : graph.Invariant) (present : graph.contains id)
    (kinds : Option (List EdgeKind)) :
    ∃ nodes, graph.predecessors id kinds = .ok nodes ∧ (∀ node ∈ nodes, node ∈ graph.nodes) ∧
      FirstOccurrences ((graph.edgesInto id kinds).map (·.source)) (nodes.map (·.id)) := by
  refine ⟨_, invariant.predecessors_eq present kinds, firstOccurrences_nodes ?_⟩
  intro source member
  obtain ⟨edge, listed, rfl⟩ := List.mem_map.mp member
  exact (invariant.ends_of_mem_edges (List.mem_filter.mp listed).1).1

/-! ## Identifiers -/

/-- The answer for a node that is no identifier comes from the first edge that links
it to one. -/
theorem toIdentifier_eq (invariant : graph.Invariant) {node : Node}
    (found : graph.node? id = some node) (other : node.kind ≠ .identifierToken) :
    graph.toIdentifier id =
      match (graph.edges.find? (graph.linksIdentifier id)).bind (graph.node? ·.target) with
      | none => .error (.noIdentifier id)
      | some token => .ok token := by
  have first :
      ((((graph.edgesFrom id (some [.associatedToken])).map (·.target)).eraseDups.filterMap
        graph.node?).filter (·.kind == .identifierToken)).head? =
        (graph.edges.find? (graph.linksIdentifier id)).bind (graph.node? ·.target) := by
    rw [List.head?_filter, List.find?_filterMap, find?_eraseDups, List.find?_map, edgesFrom,
      List.find?_filter, Option.bind_map]
    congr 1
    congr 1
    funext edge
    rw [Bool.eq_iff_iff]
    simp [linksIdentifier, admits, and_assoc]
  simp only [toIdentifier, found, if_neg other,
    invariant.successors_eq (contains_of_node? found), ← first, bind, Except.bind]
  split
  · next none => rw [none, List.head?_nil]
  · next token rest some => rw [some, List.head?_cons]

/-- The first edge that links a node to an identifier gives the answer. -/
theorem toIdentifier_of_linked (invariant : graph.Invariant) {node : Node} {edge : Edge}
    (found : graph.node? id = some node) (other : node.kind ≠ .identifierToken)
    (linked : graph.edges.find? (graph.linksIdentifier id) = some edge) :
    ∃ token, graph.node? edge.target = some token ∧ token.kind = .identifierToken ∧
      graph.toIdentifier id = .ok token := by
  obtain ⟨token, atTarget, identifier⟩ :=
    exists_identifier_of_linksIdentifier (List.find?_some linked)
  refine ⟨token, atTarget, identifier, ?_⟩
  rw [invariant.toIdentifier_eq found other, linked, Option.bind_some, atTarget]

/-- No answer is given just when no edge links the node to an identifier. -/
theorem toIdentifier_eq_error_iff (invariant : graph.Invariant) {node : Node}
    (found : graph.node? id = some node) (other : node.kind ≠ .identifierToken) :
    graph.toIdentifier id = .error (.noIdentifier id) ↔
      ∀ edge ∈ graph.edges, ¬graph.linksIdentifier id edge := by
  rw [← List.find?_eq_none]
  constructor
  · intro refused
    cases linked : graph.edges.find? (graph.linksIdentifier id) with
    | none => rfl
    | some edge =>
        obtain ⟨token, _, _, answered⟩ := invariant.toIdentifier_of_linked found other linked
        rw [answered] at refused
        cases refused
  · intro unlinked
    rw [invariant.toIdentifier_eq found other, unlinked]
    rfl

end Invariant

/-! ## All questions about the edges of a node -/

/-- The questions about the edges of a node are answered as by a scan of all edges in
the order in which they were added. -/
structure AnswersByScan (graph : Graph) : Prop where
  edgesIncidentTo : ∀ id, graph.contains id →
    graph.edgesIncidentTo id = .ok (graph.edges.filter (·.touches id))
  edgesBetween : ∀ source target, graph.contains source → graph.contains target →
    graph.edgesBetween source target =
      .ok (graph.edges.filter fun edge => edge.source == source && edge.target == target)
  /-- Each target comes once, at the place of the first edge that leads to it. -/
  successors : ∀ id kinds, graph.contains id →
    ∃ nodes, graph.successors id kinds = .ok nodes ∧ (∀ node ∈ nodes, node ∈ graph.nodes) ∧
      FirstOccurrences ((graph.edgesFrom id kinds).map (·.target)) (nodes.map (·.id))
  predecessors : ∀ id kinds, graph.contains id →
    ∃ nodes, graph.predecessors id kinds = .ok nodes ∧ (∀ node ∈ nodes, node ∈ graph.nodes) ∧
      FirstOccurrences ((graph.edgesInto id kinds).map (·.source)) (nodes.map (·.id))
  /-- An identifier stands for itself. -/
  toIdentifier_self : ∀ id node, graph.node? id = some node → node.kind = .identifierToken →
    graph.toIdentifier id = .ok node
  /-- For any other node stands the target of the first edge that links it to one. -/
  toIdentifier_linked : ∀ id node edge, graph.node? id = some node →
    node.kind ≠ .identifierToken → graph.edges.find? (graph.linksIdentifier id) = some edge →
    ∃ token, graph.node? edge.target = some token ∧ token.kind = .identifierToken ∧
      graph.toIdentifier id = .ok token
  toIdentifier_eq_noIdentifier_iff : ∀ id node, graph.node? id = some node →
    node.kind ≠ .identifierToken →
    (graph.toIdentifier id = .error (.noIdentifier id) ↔
      ∀ edge ∈ graph.edges, ¬graph.linksIdentifier id edge)
  /-- An id that is not in the graph is refused, and of two ids the first such. -/
  absent : ∀ id, ¬graph.contains id →
    graph.edgesIncidentTo id = .error (.unknownNode id) ∧
      (∀ kinds, graph.successors id kinds = .error (.unknownNode id)) ∧
      (∀ kinds, graph.predecessors id kinds = .error (.unknownNode id)) ∧
      graph.toIdentifier id = .error (.unknownNode id) ∧
      (∀ target, graph.edgesBetween id target = .error (.unknownNode id)) ∧
      ∀ source, graph.contains source →
        graph.edgesBetween source id = .error (.unknownNode id)

/-- After every history the indexes give the answers of a scan. -/
theorem answersByScan_of_reachable (reachable : graph.Reachable) : graph.AnswersByScan := by
  have invariant := reachable.invariant
  constructor
  case edgesIncidentTo => exact fun id present => invariant.edgesIncidentTo_eq present
  case edgesBetween =>
    exact fun source target first second => invariant.edgesBetween_eq first second
  case successors => exact fun id kinds present => invariant.exists_successors present kinds
  case predecessors => exact fun id kinds present => invariant.exists_predecessors present kinds
  case toIdentifier_self =>
    intro id node found identifier
    simp only [toIdentifier, found, if_pos identifier]
  case toIdentifier_linked =>
    exact fun id node edge found other linked =>
      invariant.toIdentifier_of_linked found other linked
  case toIdentifier_eq_noIdentifier_iff =>
    exact fun id node found other => invariant.toIdentifier_eq_error_iff found other
  case absent =>
    intro id absent
    exact ⟨edgesIncidentTo_of_not_contains absent, successors_of_not_contains absent,
      predecessors_of_not_contains absent, toIdentifier_of_not_contains absent,
      edgesBetween_of_not_contains_source absent,
      fun _ present => edgesBetween_of_not_contains_target present absent⟩

theorem answersByScan_sample :
    sample.Reachable ∧
      sample.edges = [⟨0, 1, .astChild⟩, ⟨1, 2, .lastUse⟩, ⟨1, 1, .computedFrom⟩,
        ⟨1, 2, .associatedToken⟩] ∧
      sample.AnswersByScan :=
  ⟨reachable_sample, by decide, answersByScan_of_reachable reachable_sample⟩

end ProgramGraph.Graph
