import Mathlib.Data.List.Nodup
import ProgramGraph.Proofs.Graph.Associations

/-!
# The invariant of graphs

A graph stores the same facts several times over: nodes, slots, two indexes, a count
of edges and two tables of keys.  `Invariant` says that all of them tell the same
story.  Every operation that changes a graph is made of a few small changes, and each
of these keeps the invariant: a node is added, a key is given to a node, an edge is
put into a new slot, a slot is emptied, a node is taken out.
-/

namespace ProgramGraph.Graph

variable {graph : Graph} {id : NodeId} {key : SyntaxKey} {edge : Edge} {slot : Slot}

/-- The parts of a graph agree with each other. -/
structure Invariant (graph : Graph) : Prop extends graph.Indexed, graph.Keyed where
  /-- Nodes stand in the order of their ids, and no two share an id. -/
  ids_ascend : graph.nodes.Pairwise (·.id < ·.id)
  id_lt_nextId : ∀ node ∈ graph.nodes, node.id < graph.nextId
  /-- Both ends of an edge are nodes of the graph. -/
  ends_mem : ∀ slot edge, graph.edge? slot = some edge →
    graph.contains edge.source ∧ graph.contains edge.target

namespace Invariant

theorem empty (sourceFile : String) (lines : LineMap) :
    (Graph.empty sourceFile lines).Invariant where
  toIndexed := .empty sourceFile lines
  toKeyed := .empty sourceFile lines
  ids_ascend := List.Pairwise.nil
  id_lt_nextId _ member := by cases member
  ends_mem slot edge live := by simp [Graph.empty, edge?] at live

/-! ## Lookups -/

theorem nodup_ids (invariant : graph.Invariant) : (graph.nodes.map (·.id)).Nodup :=
  List.pairwise_map.mpr (invariant.ids_ascend.imp Nat.ne_of_lt)

theorem node?_eq_some_iff (invariant : graph.Invariant) {node : Node} :
    graph.node? id = some node ↔ node ∈ graph.nodes ∧ node.id = id := by
  constructor
  · intro found
    exact ⟨mem_of_node? found, id_of_node? found⟩
  · rintro ⟨member, rfl⟩
    cases found : graph.node? node.id with
    | none => exact absurd (contains_iff.mpr ⟨node, member, rfl⟩) (node?_eq_none_iff.mp found)
    | some other =>
        have same : other = node := List.inj_on_of_nodup_map invariant.nodup_ids
          (mem_of_node? found) member (id_of_node? found)
        rw [same]

theorem contains_nextId (invariant : graph.Invariant) : ¬graph.contains graph.nextId := by
  intro present
  obtain ⟨node, member, same⟩ := contains_iff.mp present
  exact Nat.ne_of_lt (invariant.id_lt_nextId node member) same

/-- No edge touches an id that is not in the graph. -/
theorem not_touches (invariant : graph.Invariant) (absent : ¬graph.contains id)
    (live : graph.edge? slot = some edge) : edge.source ≠ id ∧ edge.target ≠ id := by
  obtain ⟨source, target⟩ := invariant.ends_mem slot edge live
  constructor
  · rintro rfl
    exact absent source
  · rintro rfl
    exact absent target

/-- The slots listed at an id are those of the edges that leave it, also for an id
that is not in the graph. -/
theorem slotsFrom_eq (invariant : graph.Invariant) (id : NodeId) :
    graph.slotsFrom id = graph.slotsWhere (·.source == id) := by
  by_cases present : graph.contains id
  · exact invariant.outgoing.listed id present
  · rw [slotsFrom, invariant.outgoing.unlisted id present, slotsWhere_eq_nil]
    · rfl
    · intro slot edge live leaves
      exact (invariant.not_touches present live).1 (beq_iff_eq.mp leaves)

theorem slotsInto_eq (invariant : graph.Invariant) (id : NodeId) :
    graph.slotsInto id = graph.slotsWhere (·.target == id) := by
  by_cases present : graph.contains id
  · exact invariant.incoming.listed id present
  · rw [slotsInto, invariant.incoming.unlisted id present, slotsWhere_eq_nil]
    · rfl
    · intro slot edge live enters
      exact (invariant.not_touches present live).2 (beq_iff_eq.mp enters)

/-! ## Small changes -/

/-- A node with a new id may be added anywhere, as long as the ids still ascend. -/
theorem extend {nodes : List Node} {node : Node} {nextId : NodeId}
    (invariant : graph.Invariant) (fresh : ¬graph.contains node.id)
    (members : ∀ other, other ∈ nodes ↔ other = node ∨ other ∈ graph.nodes)
    (ascend : nodes.Pairwise (·.id < ·.id)) (bound : ∀ other ∈ nodes, other.id < nextId) :
    { graph with nodes, nextId }.Invariant := by
  have contains : ∀ other, { graph with nodes, nextId }.contains other ↔
      other = node.id ∨ graph.contains other := by
    intro other
    simp only [contains_iff, members, exists_eq_or_imp]
    tauto
  have indexedBy : ∀ {index : Table NodeId (List Slot)} {endOf : Edge → NodeId},
      graph.IndexedBy index endOf →
      (∀ slot edge, graph.edge? slot = some edge → endOf edge ≠ node.id) →
      { graph with nodes, nextId }.IndexedBy index endOf :=
    fun indexed untouched => indexed.extend rfl fresh contains untouched
  constructor
  · constructor
    · exact indexedBy invariant.outgoing fun _ _ live => (invariant.not_touches fresh live).1
    · exact indexedBy invariant.incoming fun _ _ live => (invariant.not_touches fresh live).2
    · exact invariant.counted
  · exact invariant.toKeyed.congr rfl rfl fun other present =>
      (contains other).mpr (Or.inr present)
  · exact ascend
  · exact bound
  · intro slot edge live
    obtain ⟨source, target⟩ := invariant.ends_mem slot edge live
    exact ⟨(contains _).mpr (Or.inr source), (contains _).mpr (Or.inr target)⟩

theorem pushNode {node : Node} (invariant : graph.Invariant) (next : node.id = graph.nextId) :
    (graph.pushNode node).Invariant := by
  have fresh : ¬graph.contains node.id := by
    rw [next]
    exact invariant.contains_nextId
  apply invariant.extend fresh
  · intro other
    simp [or_comm]
  · rw [List.pairwise_append]
    refine ⟨invariant.ids_ascend, List.pairwise_singleton _ _, ?_⟩
    intro earlier member other last
    rw [List.mem_singleton.mp last, next]
    exact invariant.id_lt_nextId earlier member
  · intro other member
    rcases List.mem_append.mp member with member | last
    · exact Nat.lt_succ_of_lt (invariant.id_lt_nextId other member)
    · rw [List.mem_singleton.mp last, next]
      exact Nat.lt_succ_self _

/-- The tables of keys may change as long as they stay inverse to each other. -/
theorem rekey {associations : Table SyntaxKey NodeId}
    {keysOf : Table NodeId (List SyntaxKey)} (invariant : graph.Invariant)
    (keyed : { graph with associations, keysOf }.Keyed) :
    { graph with associations, keysOf }.Invariant where
  toIndexed := invariant.toIndexed.congr rfl rfl rfl rfl rfl
  toKeyed := keyed
  ids_ascend := invariant.ids_ascend
  id_lt_nextId := invariant.id_lt_nextId
  ends_mem := invariant.ends_mem

theorem associate (invariant : graph.Invariant)
    (fresh : graph.associations.get? key = none) (present : graph.contains id) :
    (graph.associate key id).Invariant :=
  invariant.rekey (invariant.toKeyed.associate fresh present)

theorem moveKey {old new : NodeId} (invariant : graph.Invariant)
    (only : graph.keys old = [key]) (present : graph.contains new) :
    (graph.moveKey key old new).Invariant :=
  invariant.rekey (invariant.toKeyed.moveKey only present)

theorem pushEdge (invariant : graph.Invariant) (source : graph.contains edge.source)
    (target : graph.contains edge.target) : (graph.pushEdge edge).Invariant where
  toIndexed := invariant.toIndexed.pushEdge source target
  toKeyed := invariant.toKeyed.congr rfl rfl fun _ present => present
  ids_ascend := invariant.ids_ascend
  id_lt_nextId := invariant.id_lt_nextId
  ends_mem slot found live := by
    rw [edge?_pushEdge] at live
    split at live
    · cases live
      exact ⟨source, target⟩
    · exact invariant.ends_mem slot found live

theorem discardSlot (invariant : graph.Invariant) (slot : Slot) :
    (graph.discardSlot slot).Invariant := by
  have indexed := invariant.toIndexed.discardSlot slot
  have kept : ∀ other edge, (graph.discardSlot slot).edge? other = some edge →
      graph.edge? other = some edge := by
    intro other edge live
    rw [edge?_discardSlot] at live
    split at live
    · cases live
    · exact live
  obtain ⟨slots, outgoing, incoming, liveCount, frame⟩ := graph.discardSlot_frame slot
  rw [frame] at indexed kept ⊢
  constructor
  · exact indexed
  · exact invariant.toKeyed.congr rfl rfl fun _ present => present
  · exact invariant.ids_ascend
  · exact invariant.id_lt_nextId
  · intro other edge live
    exact invariant.ends_mem other edge (kept other edge live)

end Invariant

/-! ## Taking a node out -/

/-- Taking a node out leaves the file, its lines and the next id alone. -/
theorem withoutNode_frame (graph : Graph) (id : NodeId) :
    ∃ slots outgoing incoming liveCount,
      graph.withoutNode id = forgetKeys
        { graph with
          nodes := graph.nodes.filter (·.id ≠ id), slots, outgoing, incoming, liveCount } id := by
  obtain ⟨slots, outgoing, incoming, liveCount, frame⟩ :=
    (graph.dropNode id).discardSlots_frame (graph.incidentSlots id)
  refine ⟨slots, outgoing, incoming, liveCount, ?_⟩
  rw [withoutNode, frame]
  rfl

@[simp]
theorem nodes_withoutNode (graph : Graph) (id : NodeId) :
    (graph.withoutNode id).nodes = graph.nodes.filter (·.id ≠ id) := by
  obtain ⟨_, _, _, _, frame⟩ := graph.withoutNode_frame id
  rw [frame]
  rfl

@[simp]
theorem nextId_withoutNode (graph : Graph) (id : NodeId) :
    (graph.withoutNode id).nextId = graph.nextId := by
  obtain ⟨_, _, _, _, frame⟩ := graph.withoutNode_frame id
  rw [frame]
  rfl

@[simp]
theorem sourceFile_withoutNode (graph : Graph) (id : NodeId) :
    (graph.withoutNode id).sourceFile = graph.sourceFile := by
  obtain ⟨_, _, _, _, frame⟩ := graph.withoutNode_frame id
  rw [frame]
  rfl

theorem contains_withoutNode (graph : Graph) (id other : NodeId) :
    (graph.withoutNode id).contains other ↔ graph.contains other ∧ other ≠ id := by
  rw [← contains_dropNode]
  simp [contains, dropNode]

theorem get?_associations_withoutNode (graph : Graph) (id : NodeId) (key : SyntaxKey) :
    (graph.withoutNode id).associations.get? key =
      if key ∈ graph.keys id then none else graph.associations.get? key := by
  obtain ⟨_, _, _, _, frame⟩ := graph.withoutNode_frame id
  rw [frame, get?_associations_forgetKeys]
  rfl

/-- For a node of the graph the incident slots are those of the edges that touch it. -/
theorem Indexed.mem_incidentSlots (indexed : graph.Indexed) (present : graph.contains id) :
    slot ∈ graph.incidentSlots id ↔ ∃ edge, graph.edge? slot = some edge ∧ edge.touches id := by
  have source : graph.slotsFrom id = graph.slotsWhere (·.source == id) :=
    indexed.outgoing.listed id present
  have target : graph.slotsInto id = graph.slotsWhere (·.target == id) :=
    indexed.incoming.listed id present
  rw [incidentSlots, source, target, List.mem_append, mem_slotsWhere, mem_slotsWhere,
    ← exists_or]
  simp only [Edge.touches, Bool.or_eq_true]
  exact exists_congr fun _ => and_or_left.symm

/-- The edges that touch the node go, all others stay in their slots. -/
theorem edge?_withoutNode (indexed : graph.Indexed) (present : graph.contains id)
    (slot : Slot) :
    (graph.withoutNode id).edge? slot = (graph.edge? slot).filter (!·.touches id) := by
  have emptied : (graph.withoutNode id).edge? slot =
      if slot ∈ graph.incidentSlots id then none else graph.edge? slot :=
    edge?_discardSlots (graph.dropNode id) (graph.incidentSlots id) slot
  rw [emptied]
  cases live : graph.edge? slot with
  | none => simp
  | some edge =>
      have touched : slot ∈ graph.incidentSlots id ↔ edge.touches id := by
        rw [indexed.mem_incidentSlots present, live]
        simp
      by_cases touches : edge.touches id <;> simp [touched, touches, Option.filter]

theorem slotsWhere_withoutNode (indexed : graph.Indexed) (present : graph.contains id)
    (keep : Edge → Bool) :
    (graph.withoutNode id).slotsWhere keep =
      graph.slotsWhere fun edge => keep edge && !edge.touches id := by
  have size : (graph.withoutNode id).slots.size = graph.slots.size :=
    size_slots_discardSlots (graph.dropNode id) (graph.incidentSlots id)
  simp only [slotsWhere, size, edge?_withoutNode indexed present]
  apply List.filter_congr
  intro slot _
  cases graph.edge? slot with
  | none => rfl
  | some edge => by_cases touches : edge.touches id <;> simp [touches, Option.filter]

theorem edges_withoutNode (indexed : graph.Indexed) (present : graph.contains id) :
    (graph.withoutNode id).edges = graph.edges.filter (!·.touches id) := by
  rw [← filterMap_edge?_slotsWhere_true, slotsWhere_withoutNode indexed present,
    ← filterMap_edge?_slotsWhere]
  simp only [Bool.true_and]
  apply List.filterMap_congr
  intro slot member
  obtain ⟨edge, live, untouched⟩ := mem_slotsWhere.mp member
  rw [edge?_withoutNode indexed present, live]
  simp [Option.filter, untouched]

theorem Invariant.withoutNode (invariant : graph.Invariant) (present : graph.contains id) :
    (graph.withoutNode id).Invariant := by
  have rest : ((graph.dropNode id).discardSlots (graph.incidentSlots id)).Indexed :=
    (invariant.toIndexed.dropNode id).discardSlots _
  constructor
  · exact rest.congr rfl rfl rfl rfl rfl
  · obtain ⟨_, _, _, _, frame⟩ := graph.withoutNode_frame id
    rw [frame]
    apply Keyed.forgetKeys invariant.toKeyed
    · rfl
    · rfl
    · intro other inside different
      exact (contains_dropNode graph id other).mpr ⟨inside, different⟩
  · rw [nodes_withoutNode]
    exact invariant.ids_ascend.filter _
  · intro node member
    rw [nodes_withoutNode] at member
    rw [nextId_withoutNode]
    exact invariant.id_lt_nextId node (List.mem_filter.mp member).1
  · intro slot edge live
    rw [edge?_withoutNode invariant.toIndexed present, Option.filter_eq_some_iff] at live
    obtain ⟨live, untouched⟩ := live
    obtain ⟨source, target⟩ := invariant.ends_mem slot edge live
    simp only [Edge.touches, Bool.not_eq_true', Bool.or_eq_false_iff, beq_eq_false_iff_ne]
      at untouched
    exact ⟨(contains_withoutNode graph id _).mpr ⟨source, untouched.1⟩,
      (contains_withoutNode graph id _).mpr ⟨target, untouched.2⟩⟩

end ProgramGraph.Graph
