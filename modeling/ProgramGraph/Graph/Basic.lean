import ProgramGraph.Graph.Error
import ProgramGraph.LineMap
import ProgramGraph.Table

/-!
# Program graphs

A program graph is a directed multigraph over program elements.  Its nodes are
kept by ascending id.  Its edges are kept in numbered slots: the slot of an edge
never changes and is left empty when the edge goes, so a slot number keeps its
meaning for the life of the graph.  Beside the slots stand two indexes, from a
node to the slots that leave it and to the slots that enter it.

A node may be created for a *syntax key*, the handle of a syntax element; a
second creation for the same key answers with the node of the first.
`associations` leads from keys to nodes and `keysOf` back from nodes to keys.

This module holds the graph, its construction and the lookups that construction
needs.  An operation that can be refused returns the graph only when it is
carried out, so a refused operation leaves nothing behind.
-/

namespace ProgramGraph

/-- The number of the place where an edge is stored. -/
abbrev Slot := Nat

/-- The handle of a syntax element. -/
abbrev SyntaxKey := Nat

/-- A directed multigraph over program elements. -/
structure Graph where
  /-- The name of the file that the graph describes. -/
  sourceFile : String := ""
  /-- The lines of that file. -/
  lines : LineMap := {}
  /-- The nodes, by ascending id. -/
  nodes : List Node := []
  /-- The edges ever added; an emptied slot holds nothing. -/
  slots : Array (Option Edge) := #[]
  /-- The slots of the edges that leave a node, in ascending order. -/
  outgoing : Table NodeId (List Slot) := {}
  /-- The slots of the edges that enter a node, in ascending order. -/
  incoming : Table NodeId (List Slot) := {}
  /-- The node created for a syntax key. -/
  associations : Table SyntaxKey NodeId := {}
  /-- The syntax keys that stand for a node, in the order they came to it. -/
  keysOf : Table NodeId (List SyntaxKey) := {}
  /-- The id of the next node. -/
  nextId : NodeId := 0
  /-- How many slots hold an edge. -/
  liveCount : Nat := 0
  deriving Repr, Inhabited, DecidableEq

namespace Graph

/-- The graph without nodes of a file. -/
def empty (sourceFile : String) (lines : LineMap) : Graph :=
  { sourceFile, lines }

/-! ## Lookups -/

/-- The node with an id. -/
def node? (graph : Graph) (id : NodeId) : Option Node :=
  graph.nodes.find? (·.id == id)

/-- Whether a node with this id is in the graph. -/
def contains (graph : Graph) (id : NodeId) : Bool :=
  graph.nodes.any (·.id == id)

/-- The edge in a slot. -/
def edge? (graph : Graph) (slot : Slot) : Option Edge :=
  (graph.slots[slot]?).join

/-- The slots of the edges that leave a node. -/
def slotsFrom (graph : Graph) (id : NodeId) : List Slot :=
  (graph.outgoing.get? id).getD []

/-- The slots of the edges that enter a node. -/
def slotsInto (graph : Graph) (id : NodeId) : List Slot :=
  (graph.incoming.get? id).getD []

/-- The slots of the edges that touch a node, those that leave it first; the slot of
a loop is listed twice. -/
def incidentSlots (graph : Graph) (id : NodeId) : List Slot :=
  graph.slotsFrom id ++ graph.slotsInto id

/-- The syntax keys that stand for a node. -/
def keys (graph : Graph) (id : NodeId) : List SyntaxKey :=
  (graph.keysOf.get? id).getD []

/-- The node created for a syntax key, if it is still in the graph. -/
def nodeForKey? (graph : Graph) (key : SyntaxKey) : Option Node :=
  (graph.associations.get? key).bind graph.node?

/-- Refuse an id that is not in the graph. -/
def require (graph : Graph) (id : NodeId) : Except GraphError Unit :=
  if graph.contains id then .ok () else .error (.unknownNode id)

/-! ## Construction -/

/-- The node that the next creation makes. -/
def freshNode (graph : Graph) (kind : NodeKind) (contents : String)
    (first last : Nat) : Node where
  id := graph.nextId
  kind := kind
  contents := contents
  startPosition := first
  endPosition := last
  startLine := graph.lines.lineNumber first
  endLine := graph.lines.lineNumber last

/-- Put a node behind all others and go on to the next id. -/
def pushNode (graph : Graph) (node : Node) : Graph :=
  { graph with nodes := graph.nodes ++ [node], nextId := graph.nextId + 1 }

/-- Create a node that no syntax key stands for. -/
def createDetached (graph : Graph) (kind : NodeKind) (contents : String)
    (first last : Nat) : Node × Graph :=
  let node := graph.freshNode kind contents first last
  (node, graph.pushNode node)

/-- Let `key` stand for the node `id`, after the keys that already do. -/
def associate (graph : Graph) (key : SyntaxKey) (id : NodeId) : Graph :=
  { graph with
    associations := graph.associations.set key id
    keysOf := graph.keysOf.set id (graph.keys id ++ [key]) }

/-- Create the node of a syntax element, or answer with the node that its key
already stands for; in that case the other arguments are not looked at. -/
def create (graph : Graph) (kind : NodeKind) (contents : String)
    (first last : Nat) (key : SyntaxKey) : Node × Graph :=
  match graph.nodeForKey? key with
  | some node => (node, graph)
  | none =>
      let (node, grown) := graph.createDetached kind contents first last
      (node, grown.associate key node.id)

/-- Put `slot` at the end of the slots of a node. -/
def indexSlot (index : Table NodeId (List Slot)) (id : NodeId) (slot : Slot) :
    Table NodeId (List Slot) :=
  index.set id ((index.get? id).getD [] ++ [slot])

/-- Put an edge into a new slot, behind all others. -/
def pushEdge (graph : Graph) (edge : Edge) : Graph :=
  { graph with
    slots := graph.slots.push (some edge)
    outgoing := indexSlot graph.outgoing edge.source graph.slots.size
    incoming := indexSlot graph.incoming edge.target graph.slots.size
    liveCount := graph.liveCount + 1 }

/-- Add an edge and answer with its slot.  Loops and parallel edges are
allowed.  The source is looked up before the target. -/
def addEdge (graph : Graph) (source target : NodeId) (kind : EdgeKind) :
    Except GraphError (Slot × Graph) := do
  graph.require source
  graph.require target
  return (graph.slots.size, graph.pushEdge { source, target, kind })

/-- Let `key`, the only key of `old`, stand for `new` instead. -/
def moveKey (graph : Graph) (key : SyntaxKey) (old new : NodeId) : Graph :=
  { graph with keysOf := graph.keysOf.erase old }.associate key new

/-- Let the one syntax key of `old` stand for `new` instead.  Nodes and edges
stay as they are. -/
def replaceAssociation (graph : Graph) (old new : NodeId) :
    Except GraphError Graph := do
  graph.require old
  graph.require new
  match graph.keys old with
  | [] => .error (.nodeNotAssociated old)
  | [key] => .ok (graph.moveKey key old new)
  | keys => .error (.ambiguousAssociation old keys.length)

/-! ## Laws of the lookups -/

section Laws

variable {graph : Graph} {id : NodeId}

theorem contains_iff : graph.contains id ↔ ∃ node ∈ graph.nodes, node.id = id := by
  simp [contains]

theorem node?_eq_none_iff : graph.node? id = none ↔ ¬graph.contains id := by
  simp [node?, contains]

theorem id_of_node? {node : Node} (found : graph.node? id = some node) : node.id = id := by
  simpa using List.find?_some found

theorem mem_of_node? {node : Node} (found : graph.node? id = some node) :
    node ∈ graph.nodes :=
  List.mem_of_find?_eq_some found

theorem contains_of_node? {node : Node} (found : graph.node? id = some node) :
    graph.contains id :=
  contains_iff.mpr ⟨node, mem_of_node? found, id_of_node? found⟩

theorem require_of_contains (present : graph.contains id) : graph.require id = .ok () :=
  if_pos present

theorem require_of_not_contains (absent : ¬graph.contains id) :
    graph.require id = .error (.unknownNode id) :=
  if_neg absent

end Laws

end Graph

end ProgramGraph
