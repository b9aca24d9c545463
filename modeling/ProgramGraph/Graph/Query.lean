import ProgramGraph.Graph.Basic

/-!
# Questions to a graph

Lists of nodes come by ascending id and lists of edges in the order in which the
edges were added, unless a definition says otherwise.  `Query` gathers the
questions as data, with `Query.answer` as their common meaning.
-/

namespace ProgramGraph

namespace Graph

/-- How many nodes the graph has. -/
def nodeCount (graph : Graph) : Nat :=
  graph.nodes.length

/-- How many edges the graph has. -/
def edgeCount (graph : Graph) : Nat :=
  graph.liveCount

/-- The nodes of the given kinds. -/
def nodesOfKind (graph : Graph) (kinds : List NodeKind) : List Node :=
  graph.nodes.filter (kinds.contains ·.kind)

/-- The only root of the syntax tree. -/
def root (graph : Graph) : Except GraphError Node :=
  match graph.nodesOfKind [.astRoot] with
  | [root] => .ok root
  | roots => .error (.rootCount graph.sourceFile roots.length)

/-- The tokens, identifiers included. -/
def tokens (graph : Graph) : List Node :=
  graph.nodesOfKind [.token, .identifierToken]

/-- The elements of the syntax tree. -/
def astNodes (graph : Graph) : List Node :=
  graph.nodesOfKind [.astElement]

/-- The comments of every form. -/
def comments (graph : Graph) : List Node :=
  graph.nodesOfKind [.commentBlock, .commentJavadoc, .commentLine]

/-- The symbols. -/
def symbols (graph : Graph) : List Node :=
  graph.nodesOfKind [.symbol]

/-- The edges. -/
def edges (graph : Graph) : List Edge :=
  graph.slots.toList.filterMap id

/-- The edges of one kind. -/
def edgesOfKind (graph : Graph) (kind : EdgeKind) : List Edge :=
  graph.edges.filter (·.kind == kind)

/-- The edges that touch a node; a loop counts once. -/
def edgesIncidentTo (graph : Graph) (id : NodeId) : Except GraphError (List Edge) := do
  graph.require id
  return (graph.incidentSlots id).mergeSort.eraseReps.filterMap graph.edge?

/-- The edges from `source` to `target`. -/
def edgesBetween (graph : Graph) (source target : NodeId) :
    Except GraphError (List Edge) := do
  graph.require source
  graph.require target
  return ((graph.slotsFrom source).filterMap graph.edge?).filter (·.target == target)

/-- Whether a filter lets a kind through; without a list of kinds every kind
passes. -/
def admits (kinds : Option (List EdgeKind)) (kind : EdgeKind) : Bool :=
  match kinds with
  | none => true
  | some kinds => kinds.contains kind

/-- The nodes that edges of the given kinds lead to, each at its first edge. -/
def successors (graph : Graph) (id : NodeId) (kinds : Option (List EdgeKind)) :
    Except GraphError (List Node) := do
  graph.require id
  let edges := ((graph.slotsFrom id).filterMap graph.edge?).filter (admits kinds ·.kind)
  return (edges.map (·.target)).eraseDups.filterMap graph.node?

/-- The nodes that edges of the given kinds come from, each at its first edge. -/
def predecessors (graph : Graph) (id : NodeId) (kinds : Option (List EdgeKind)) :
    Except GraphError (List Node) := do
  graph.require id
  let edges := ((graph.slotsInto id).filterMap graph.edge?).filter (admits kinds ·.kind)
  return (edges.map (·.source)).eraseDups.filterMap graph.node?

/-- The nodes that cover exactly the given stretch of source. -/
def nodesBySpan (graph : Graph) (first last : Nat) : List Node :=
  graph.nodes.filter (·.hasSpan first last)

/-- The identifier that stands for a node: the node itself if it is one, and
otherwise the identifier among its associated tokens that was linked first. -/
def toIdentifier (graph : Graph) (id : NodeId) : Except GraphError Node := do
  match graph.node? id with
  | none => .error (.unknownNode id)
  | some node =>
      if node.kind = .identifierToken then
        .ok node
      else
        let linked ← graph.successors id (some [.associatedToken])
        match linked.filter (·.kind == .identifierToken) with
        | [] => .error (.noIdentifier id)
        | identifier :: _ => .ok identifier

/-- Every node that has an identifier, with that identifier. -/
def identifiers (graph : Graph) : List (NodeId × NodeId) :=
  graph.nodes.filterMap fun node =>
    match graph.toIdentifier node.id with
    | .ok identifier => some (node.id, identifier.id)
    | .error _ => none

end Graph

/-- A question to a graph. -/
inductive Query where
  | node (id : NodeId)
  | nodeForKey (key : SyntaxKey)
  | containsNode (id : NodeId)
  | displayText (id : NodeId)
  | edgeAt (slot : Slot)
  | nodes
  | tokens
  | astNodes
  | comments
  | symbols
  | nodesOfKind (kinds : List NodeKind)
  | root
  | edges
  | edgesOfKind (kind : EdgeKind)
  | edgesIncidentTo (id : NodeId)
  | edgesBetween (source target : NodeId)
  | successors (id : NodeId) (kinds : Option (List EdgeKind))
  | predecessors (id : NodeId) (kinds : Option (List EdgeKind))
  | nodesBySpan (first last : Nat)
  | toIdentifier (id : NodeId)
  | identifiers
  | sourceFile
  | lineNumber (position : Nat)
  | lineCount
  deriving DecidableEq, Repr

/-- The answer to a question. -/
inductive Answer where
  | node (node : Option Node)
  | flag (value : Bool)
  | text (value : Option String)
  | edge (edge : Option Edge)
  | ids (ids : List NodeId)
  | id (id : NodeId)
  | edges (edges : List Edge)
  | pairs (pairs : List (NodeId × NodeId))
  | number (value : Nat)
  deriving DecidableEq, Repr

namespace Query

/-- The ids of a list of nodes, as an answer. -/
def idsOf (nodes : List Node) : Answer :=
  .ids (nodes.map (·.id))

/-- What a graph answers to a question. -/
def answer (graph : Graph) : Query → Except GraphError Answer
  | node id => .ok (.node (graph.node? id))
  | nodeForKey key => .ok (.node (graph.nodeForKey? key))
  | containsNode id => .ok (.flag (graph.contains id))
  | displayText id => .ok (.text ((graph.node? id).map Node.displayText))
  | edgeAt slot => .ok (.edge (graph.edge? slot))
  | nodes => .ok (idsOf graph.nodes)
  | tokens => .ok (idsOf graph.tokens)
  | astNodes => .ok (idsOf graph.astNodes)
  | comments => .ok (idsOf graph.comments)
  | symbols => .ok (idsOf graph.symbols)
  | nodesOfKind kinds => .ok (idsOf (graph.nodesOfKind kinds))
  | root => graph.root.map (Answer.id ·.id)
  | edges => .ok (.edges graph.edges)
  | edgesOfKind kind => .ok (.edges (graph.edgesOfKind kind))
  | edgesIncidentTo id => (graph.edgesIncidentTo id).map .edges
  | edgesBetween source target => (graph.edgesBetween source target).map .edges
  | successors id kinds => (graph.successors id kinds).map idsOf
  | predecessors id kinds => (graph.predecessors id kinds).map idsOf
  | nodesBySpan first last => .ok (idsOf (graph.nodesBySpan first last))
  | toIdentifier id => (graph.toIdentifier id).map (Answer.id ·.id)
  | identifiers => .ok (.pairs graph.identifiers)
  | sourceFile => .ok (.text (some graph.sourceFile))
  | lineNumber position => .ok (.number (graph.lines.lineNumber position))
  | lineCount => .ok (.number graph.lines.lineCount)

end Query

end ProgramGraph
