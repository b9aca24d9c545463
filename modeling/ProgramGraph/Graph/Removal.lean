import ProgramGraph.Graph.Basic

/-!
# Removing nodes and edges

An edge is removed by emptying its slot and striking the slot from the two
indexes.  A node is removed with every edge that touches it and with every
syntax key that stands for it.  Pruning removes leaves of the syntax tree in
rounds: removing a leaf may turn its parent into one.
-/

namespace ProgramGraph.Graph

/-- Strike a slot from the slots of one node. -/
def unindexSlot (index : Table NodeId (List Slot)) (id : NodeId) (slot : Slot) :
    Table NodeId (List Slot) :=
  match index.get? id with
  | none => index
  | some slots => index.set id (slots.filter (· ≠ slot))

/-- Empty a slot and answer with the edge that was in it. -/
def removeEdgeAt (graph : Graph) (slot : Slot) : Option (Edge × Graph) :=
  match graph.edge? slot with
  | none => none
  | some edge =>
      some (edge,
        { graph with
          slots := graph.slots.setIfInBounds slot none
          outgoing := unindexSlot graph.outgoing edge.source slot
          incoming := unindexSlot graph.incoming edge.target slot
          liveCount := graph.liveCount - 1 })

/-- Empty a slot, whether or not an edge is in it. -/
def discardSlot (graph : Graph) (slot : Slot) : Graph :=
  match graph.removeEdgeAt slot with
  | none => graph
  | some (_, rest) => rest

/-- Empty every slot of a list. -/
def discardSlots (graph : Graph) (slots : List Slot) : Graph :=
  slots.foldl discardSlot graph

/-- Remove the earliest of the edges that equal `edge`. -/
def removeEdge (graph : Graph) (edge : Edge) : Except GraphError Graph :=
  match (graph.slotsFrom edge.source).find? (graph.edge? · == some edge) with
  | none => .error (.unknownEdge edge)
  | some slot => .ok (graph.discardSlot slot)

/-- Forget every syntax key that stands for a node. -/
def forgetKeys (graph : Graph) (id : NodeId) : Graph :=
  { graph with
    associations := (graph.keys id).foldl Table.erase graph.associations
    keysOf := graph.keysOf.erase id }

/-- Take a node out of the graph together with its two lists of slots.  The edges
that touch it are still in their slots. -/
def dropNode (graph : Graph) (id : NodeId) : Graph :=
  { graph with
    nodes := graph.nodes.filter (·.id ≠ id)
    outgoing := graph.outgoing.erase id
    incoming := graph.incoming.erase id }

/-- The graph without a node, its edges and its keys. -/
def withoutNode (graph : Graph) (id : NodeId) : Graph :=
  ((graph.dropNode id).discardSlots (graph.incidentSlots id)).forgetKeys id

/-- Remove a node with its edges and keys, and answer with the node. -/
def removeNode (graph : Graph) (id : NodeId) : Except GraphError (Node × Graph) :=
  match graph.node? id with
  | none => .error (.unknownNode id)
  | some node => .ok (node, graph.withoutNode id)

/-! ## Pruning -/

/-- Whether pruning would remove this node now: it is of a prunable kind and no
edge leaves it. -/
def isPrunableLeaf (graph : Graph) (node : Node) : Bool :=
  node.kind.isPrunable && (graph.slotsFrom node.id).isEmpty

/-- The ids of the nodes that pruning would remove now. -/
def prunableLeaves (graph : Graph) : List NodeId :=
  (graph.nodes.filter graph.isPrunableLeaf).map (·.id)

/-- Remove one node if it is there, and count it. -/
def pruneNode (state : Nat × Graph) (id : NodeId) : Nat × Graph :=
  match state.2.removeNode id with
  | .ok (_, rest) => (state.1 + 1, rest)
  | .error _ => state

/-- At most `rounds` rounds of pruning; a round removes the leaves that are there
when it begins. -/
def pruneRounds : Nat → Nat × Graph → Nat × Graph
  | 0, state => state
  | rounds + 1, state =>
      match state.2.prunableLeaves with
      | [] => state
      | leaves => pruneRounds rounds (leaves.foldl pruneNode state)

/-- Remove leaves of the syntax tree until none is left, and answer with their
number.  A round that finds a leaf removes a node, so as many rounds as there
are nodes are enough. -/
def prune (graph : Graph) : Nat × Graph :=
  pruneRounds graph.nodes.length (0, graph)

/-! ## Laws -/

@[simp]
theorem discardSlots_nil (graph : Graph) : graph.discardSlots [] = graph :=
  rfl

@[simp]
theorem discardSlots_cons (graph : Graph) (slot : Slot) (rest : List Slot) :
    graph.discardSlots (slot :: rest) = (graph.discardSlot slot).discardSlots rest :=
  rfl

/-- Removing what is in a slot and emptying the slot lead to the same graph. -/
theorem removeEdgeAt_eq (graph : Graph) (slot : Slot) :
    graph.removeEdgeAt slot =
      (graph.edge? slot).map fun edge => (edge, graph.discardSlot slot) := by
  unfold discardSlot removeEdgeAt
  cases graph.edge? slot <;> rfl

@[simp]
theorem pruneRounds_zero (state : Nat × Graph) : pruneRounds 0 state = state :=
  rfl

theorem pruneRounds_succ (rounds : Nat) (state : Nat × Graph) :
    pruneRounds (rounds + 1) state =
      match state.2.prunableLeaves with
      | [] => state
      | leaves => pruneRounds rounds (leaves.foldl pruneNode state) :=
  rfl

end ProgramGraph.Graph
