import ProgramGraph.Attempt
import ProgramGraph.Graph.Operation

/-!
# Operations in place

A graph that is kept in one place is changed write by write, and a refusal does not
take back what was written before it.  The programs here carry out the operations in
this way: each of them looks at the stored graph, refuses or goes on, and changes one
part of the graph at a time.

`Operation.inPlace` gathers the programs.  What an operation answers in place and what
it leaves behind is compared with `Operation.run` by proof.
-/

namespace ProgramGraph

/-- A program on the one graph that is stored.  What was written before a refusal stays
written. -/
abbrev InPlace := Attempt GraphError Graph

namespace InPlace

/-! ## Construction -/

/-- Refuse an id that is not in the graph. -/
def require (id : NodeId) : InPlace Unit := do
  if (← get).contains id then return () else throw (.unknownNode id)

/-- Give out the next id and put a node of this id behind all others. -/
def createDetached (kind : NodeKind) (contents : String) (first last : Nat) : InPlace Node := do
  let node := (← get).freshNode kind contents first last
  modify fun graph => { graph with nextId := graph.nextId + 1 }
  modify fun graph => { graph with nodes := graph.nodes ++ [node] }
  return node

/-- Let `key` stand for a node, in one table of keys after the other. -/
def associate (key : SyntaxKey) (id : NodeId) : InPlace Unit := do
  modify fun graph => { graph with associations := graph.associations.set key id }
  modify fun graph => { graph with keysOf := graph.keysOf.set id (graph.keys id ++ [key]) }

/-- Create the node of a syntax element unless its key stands for one. -/
def create (kind : NodeKind) (contents : String) (first last : Nat) (key : SyntaxKey) :
    InPlace Node := do
  match (← get).nodeForKey? key with
  | some node => return node
  | none =>
      let node ← createDetached kind contents first last
      associate key node.id
      return node

/-- Add an edge: a new slot, an entry in either index, and the count. -/
def addEdge (edge : Edge) : InPlace Slot := do
  require edge.source
  require edge.target
  let slot := (← get).slots.size
  modify fun graph => { graph with slots := graph.slots.push (some edge) }
  modify fun graph => { graph with outgoing := Graph.indexSlot graph.outgoing edge.source slot }
  modify fun graph => { graph with incoming := Graph.indexSlot graph.incoming edge.target slot }
  modify fun graph => { graph with liveCount := graph.liveCount + 1 }
  return slot

/-- Let the one key of `old` stand for `new` instead. -/
def replaceAssociation (old new : NodeId) : InPlace Unit := do
  require old
  require new
  match (← get).keys old with
  | [] => throw (.nodeNotAssociated old)
  | [key] =>
      modify fun graph => { graph with keysOf := graph.keysOf.erase old }
      associate key new
  | keys => throw (.ambiguousAssociation old keys.length)

/-! ## Removal -/

/-- Take the edge out of a slot, strike the slot from either index and count the edge
off. -/
def removeEdgeAt (slot : Slot) : InPlace (Option Edge) := do
  match (← get).edge? slot with
  | none => return none
  | some edge =>
      modify fun graph => { graph with slots := graph.slots.setIfInBounds slot none }
      modify fun graph => { graph with
        outgoing := Graph.unindexSlot graph.outgoing edge.source slot }
      modify fun graph => { graph with
        incoming := Graph.unindexSlot graph.incoming edge.target slot }
      modify fun graph => { graph with liveCount := graph.liveCount - 1 }
      return some edge

/-- Empty the slots of a list one after the other. -/
def discardSlots : List Slot → InPlace Unit
  | [] => return ()
  | slot :: rest => do
      let _ ← removeEdgeAt slot
      discardSlots rest

/-- Take keys out of the table of associations one after the other. -/
def discardKeys : List SyntaxKey → InPlace Unit
  | [] => return ()
  | key :: rest => do
      modify fun graph => { graph with associations := graph.associations.erase key }
      discardKeys rest

/-- Remove the earliest of the edges that equal `edge`.  Only the slots that leave its
source are looked at. -/
def removeEdge (edge : Edge) : InPlace Unit := do
  let graph ← get
  match (graph.slotsFrom edge.source).find? (graph.edge? · == some edge) with
  | none => throw (.unknownEdge edge)
  | some slot =>
      let _ ← removeEdgeAt slot
      return ()

/-- Remove a node: first the node itself and its lists of slots, then its edges, then
its keys. -/
def removeNode (id : NodeId) : InPlace Node := do
  match (← get).node? id with
  | none => throw (.unknownNode id)
  | some node =>
      modify fun graph => { graph with nodes := graph.nodes.filter (·.id ≠ id) }
      let leaving := (← get).slotsFrom id
      modify fun graph => { graph with outgoing := graph.outgoing.erase id }
      let entering := (← get).slotsInto id
      modify fun graph => { graph with incoming := graph.incoming.erase id }
      discardSlots (leaving ++ entering)
      let keys := (← get).keys id
      modify fun graph => { graph with keysOf := graph.keysOf.erase id }
      discardKeys keys
      return node

/-! ## Pruning -/

/-- Remove nodes one after the other and count them; a node that is refused is passed
over. -/
def pruneNodes : Nat → List NodeId → InPlace Nat
  | count, [] => return count
  | count, id :: rest => do
      let removed ← tryCatch (do let _ ← removeNode id; return true) fun _ => return false
      pruneNodes (if removed then count + 1 else count) rest

/-- At most `rounds` rounds of pruning, with `count` nodes removed before. -/
def pruneRounds : Nat → Nat → InPlace Nat
  | 0, count => return count
  | rounds + 1, count => do
      match (← get).prunableLeaves with
      | [] => return count
      | leaves => pruneRounds rounds (← pruneNodes count leaves)

/-- Remove leaves of the syntax tree until none is left, and answer with their
number. -/
def prune : InPlace Nat := do
  pruneRounds (← get).nodes.length 0

end InPlace

/-- The program that carries out an operation. -/
def Operation.inPlace : Operation → InPlace Outcome
  | create kind contents first last key => .node <$> .create kind contents first last key
  | createDetached kind contents first last => .node <$> .createDetached kind contents first last
  | addEdge edge => .slot <$> .addEdge edge
  | replaceAssociation old new => (fun _ => .done) <$> .replaceAssociation old new
  | removeNode id => .node <$> .removeNode id
  | removeEdge edge => (fun _ => .done) <$> .removeEdge edge
  | removeEdgeAt slot => .edge <$> .removeEdgeAt slot
  | prune => .count <$> .prune

end ProgramGraph
