import ProgramGraph.Graph.Operation
import ProgramGraph.Proofs.Graph.Loading
import ProgramGraph.Proofs.Graph.Pruning

/-!
# Reachable graphs

A graph is reachable if it is a new one, or the graph of a record, changed by any
history of operations; refused operations are part of a history too.  Ids are
unbounded numbers here, so a history that keeps them within 64 bits is one among
others.

The invariant holds at the start and is kept by every operation, hence it holds of
every reachable graph.  `Consistent` spells out what that means for the stored parts
of a graph one by one.
-/

namespace ProgramGraph

namespace Graph

/-- The graphs that histories of operations lead to. -/
inductive Reachable : Graph → Prop
  | empty (sourceFile : String) (lines : LineMap) : Reachable (.empty sourceFile lines)
  | loaded {record : Record} {graph : Graph} (loaded : ofRecord record = .ok graph) :
      Reachable graph
  | run {graph : Graph} (operation : Operation) (earlier : Reachable graph) :
      Reachable (operation.run graph).2

variable {graph : Graph}

theorem Reachable.runAll (reachable : graph.Reachable) (history : List Operation) :
    (Operation.runAll graph history).Reachable := by
  induction history generalizing graph with
  | nil => exact reachable
  | cons operation rest ih => exact ih (.run operation reachable)

/-! ## The invariant along a history -/

namespace Invariant

theorem create (invariant : graph.Invariant) (kind : NodeKind) (contents : String)
    (first last : Nat) (key : SyntaxKey) :
    (graph.create kind contents first last key).2.Invariant := by
  unfold Graph.create
  cases found : graph.nodeForKey? key with
  | some node => exact invariant
  | none =>
      have fresh : graph.associations.get? key = none :=
        invariant.toKeyed.nodeForKey?_eq_none_iff.mp found
      have grown : (graph.pushNode (graph.freshNode kind contents first last)).Invariant :=
        invariant.pushNode rfl
      apply grown.associate fresh
      exact contains_iff.mpr ⟨_, List.mem_append_right _ List.mem_cons_self, rfl⟩

theorem replaceAssociation {old new : NodeId} {next : Graph} (invariant : graph.Invariant)
    (done : graph.replaceAssociation old new = .ok next) : next.Invariant := by
  obtain ⟨_, newPresent, key, only, rfl⟩ := replaceAssociation_eq_ok_iff.mp done
  exact invariant.moveKey only newPresent

/-- No operation breaks the invariant, whether it is carried out or refused. -/
theorem run (invariant : graph.Invariant) (operation : Operation) :
    (operation.run graph).2.Invariant := by
  cases operation with
  | create kind contents first last key =>
      exact invariant.create kind contents first last key
  | createDetached kind contents first last => exact invariant.pushNode rfl
  | addEdge edge =>
      simp only [Operation.run]
      split
      · next slot next added =>
        obtain ⟨source, target, _, rfl⟩ := addEdge_eq_ok_iff.mp added
        exact invariant.pushEdge source target
      · exact invariant
  | replaceAssociation old new =>
      simp only [Operation.run]
      split
      · next next replaced => exact invariant.replaceAssociation replaced
      · exact invariant
  | removeNode id =>
      simp only [Operation.run]
      split
      · next node rest removed =>
        obtain ⟨found, rfl⟩ := removeNode_eq_ok_iff.mp removed
        exact invariant.withoutNode (contains_of_node? found)
      · exact invariant
  | removeEdge edge =>
      simp only [Operation.run]
      split
      · next next removed =>
        obtain ⟨slot, _, rfl⟩ := exists_slot_of_removeEdge removed
        exact invariant.discardSlot slot
      · exact invariant
  | removeEdgeAt slot =>
      simp only [Operation.run, removeEdgeAt_eq]
      cases graph.edge? slot with
      | none => exact invariant
      | some edge => exact invariant.discardSlot slot
  | prune => exact invariant.prune

end Invariant

/-- Every reachable graph has the invariant. -/
theorem Reachable.invariant (reachable : graph.Reachable) : graph.Invariant := by
  induction reachable with
  | empty sourceFile lines => exact .empty sourceFile lines
  | loaded loaded => exact .ofRecord loaded
  | run operation _ invariant => exact invariant.run operation

/-! ## What the invariant says of the stored parts -/

/-- Every part of a graph is what the nodes, the slots and the association of keys
make it. -/
structure Consistent (graph : Graph) : Prop where
  /-- A node is found under its own id and under no other. -/
  node?_eq_some_iff : ∀ id node,
    graph.node? id = some node ↔ node ∈ graph.nodes ∧ node.id = id
  ids_ascend : graph.nodes.Pairwise (·.id < ·.id)
  id_lt_nextId : ∀ node ∈ graph.nodes, node.id < graph.nextId
  ends_mem : ∀ slot edge, graph.edge? slot = some edge →
    graph.contains edge.source ∧ graph.contains edge.target
  slotsFrom_ascend : ∀ id, (graph.slotsFrom id).Pairwise (· < ·)
  mem_slotsFrom : ∀ id slot,
    slot ∈ graph.slotsFrom id ↔ ∃ edge, graph.edge? slot = some edge ∧ edge.source = id
  slotsInto_ascend : ∀ id, (graph.slotsInto id).Pairwise (· < ·)
  mem_slotsInto : ∀ id slot,
    slot ∈ graph.slotsInto id ↔ ∃ edge, graph.edge? slot = some edge ∧ edge.target = id
  /-- The indexes keep no list for an id that is not in the graph. -/
  unlisted : ∀ id, ¬graph.contains id →
    graph.outgoing.get? id = none ∧ graph.incoming.get? id = none
  liveCount_eq : graph.liveCount = graph.slots.toList.countP (·.isSome)
  /-- Whatever slots are emptied, each edge that goes is taken off the count. -/
  liveCount_discarded : ∀ gone slot edge rest,
    (graph.discardSlots gone).removeEdgeAt slot = some (edge, rest) →
      rest.liveCount + 1 = (graph.discardSlots gone).liveCount
  /-- The same while a node is being removed that has left its edges behind. -/
  liveCount_dropped : ∀ id gone slot edge rest,
    ((graph.dropNode id).discardSlots gone).removeEdgeAt slot = some (edge, rest) →
      rest.liveCount + 1 = ((graph.dropNode id).discardSlots gone).liveCount
  /-- A key is listed once at the node it stands for and at no other node. -/
  count_keys : ∀ id key,
    (graph.keys id).count key = if graph.associations.get? key = some id then 1 else 0
  associated_mem : ∀ key id, graph.associations.get? key = some id → graph.contains id

/-- An edge that is taken out was counted. -/
theorem Indexed.liveCount_removeEdgeAt {slot : Slot} {edge : Edge} {rest : Graph}
    (indexed : graph.Indexed) (removed : graph.removeEdgeAt slot = some (edge, rest)) :
    rest.liveCount + 1 = graph.liveCount := by
  rw [removeEdgeAt_eq, Option.map_eq_some_iff] at removed
  obtain ⟨found, live, same⟩ := removed
  cases same
  exact indexed.liveCount_discardSlot live

/-- No history of operations brings the stored parts of a graph out of step. -/
theorem consistent_of_reachable (reachable : graph.Reachable) : graph.Consistent := by
  have invariant := reachable.invariant
  have indexed := invariant.toIndexed
  constructor
  case node?_eq_some_iff => exact fun id node => invariant.node?_eq_some_iff
  case ids_ascend => exact invariant.ids_ascend
  case id_lt_nextId => exact invariant.id_lt_nextId
  case ends_mem => exact invariant.ends_mem
  case slotsFrom_ascend =>
    intro id
    rw [invariant.slotsFrom_eq]
    exact slotsWhere_ascend graph _
  case mem_slotsFrom =>
    intro id slot
    rw [invariant.slotsFrom_eq, mem_slotsWhere]
    simp only [beq_iff_eq]
  case slotsInto_ascend =>
    intro id
    rw [invariant.slotsInto_eq]
    exact slotsWhere_ascend graph _
  case mem_slotsInto =>
    intro id slot
    rw [invariant.slotsInto_eq, mem_slotsWhere]
    simp only [beq_iff_eq]
  case unlisted =>
    intro id absent
    exact ⟨indexed.outgoing.unlisted id absent, indexed.incoming.unlisted id absent⟩
  case liveCount_eq =>
    rw [indexed.counted, length_slotsWhere_true, edges, List.length_filterMap_eq_countP]
    rfl
  case liveCount_discarded =>
    intro gone slot edge rest removed
    exact (indexed.discardSlots gone).liveCount_removeEdgeAt removed
  case liveCount_dropped =>
    intro id gone slot edge rest removed
    exact ((indexed.dropNode id).discardSlots gone).liveCount_removeEdgeAt removed
  case count_keys => exact invariant.count_keys
  case associated_mem => exact invariant.associated_mem

/-- A history with a loop, parallel edges, a key that moves, an emptied slot and a
removed node. -/
def sampleHistory : List Operation :=
  [.create .astRoot "" 0 3 10, .create .astElement "f" 0 1 11,
    .createDetached .identifierToken "f" 0 1, .createDetached .token "y" 2 3,
    .addEdge ⟨0, 1, .astChild⟩, .addEdge ⟨1, 2, .associatedToken⟩,
    .addEdge ⟨2, 3, .nextToken⟩, .addEdge ⟨1, 2, .lastUse⟩, .addEdge ⟨1, 1, .computedFrom⟩,
    .addEdge ⟨1, 2, .associatedToken⟩, .replaceAssociation 1 2,
    .removeEdge ⟨1, 2, .associatedToken⟩, .removeNode 3, .addEdge ⟨2, 3, .nextToken⟩]

/-- The graph that the history makes of a text of two lines. -/
def sample : Graph :=
  Operation.runAll (.empty "sample" (.ofChars ['f', '\n', 'y'])) sampleHistory

theorem reachable_sample : sample.Reachable :=
  (Reachable.empty _ _).runAll sampleHistory

theorem consistent_sample :
    sample.Reachable ∧
      sample.slots = #[some ⟨0, 1, .astChild⟩, none, none, some ⟨1, 2, .lastUse⟩,
        some ⟨1, 1, .computedFrom⟩, some ⟨1, 2, .associatedToken⟩] ∧
      sample.Consistent :=
  ⟨reachable_sample, by decide, consistent_of_reachable reachable_sample⟩

end Graph

end ProgramGraph
