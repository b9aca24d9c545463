import ProgramGraph.Graph.Query

/-!
# Drawings of graphs

A drawing in the DOT language shows every node once and every edge once.  Nodes
come in blocks.  The blocks of the syntax tree hold its layers: the nodes at the
same distance from the root share a rank.  The blocks after them hold comments,
symbols, tokens and whatever is left, each without the nodes that were shown
before; a block without nodes is left out.

A drawing is a `Dot.Document` first and text after that.
-/

namespace ProgramGraph.Dot

/-! ## Styles and labels -/

/-- How edges of a kind are drawn. -/
def edgeStyle : EdgeKind → String
  | .nextToken => "headport=n, tailport=s, weight=1000"
  | .astChild => "headport=w, tailport=e"
  | .lastWrite => "headport=e, tailport=e, color=red, weight=0"
  | .lastUse => "headport=e, tailport=e, color=green, weight=0"
  | .computedFrom => "headport=e, tailport=e, color=purple, weight=0"
  | .lastLexicalUse => "headport=w, tailport=w, color=orange, weight=0"
  | .returnsTo => "headport=e, tailport=w, color=blue, weight=0"
  | .formalArgName => "headport=w, tailport=w, color=yellow, weight=0"
  | .guardedBy => "headport=e, tailport=w, color=pink, weight=0"
  | .guardedByNegation => "headport=e, tailport=w, color=pink, weight=0, style=dashed"
  | _ => ""

/-- A character as it is written in a label.  Quotes, backslashes and the marks that
would end or break a line are escaped. -/
def escapeChar : Char → List Char
  | '\\' => ['\\', '\\']
  | '"' => ['\\', '"']
  | '\n' => ['\\', 'n']
  | '\r' => ['\\', 'r']
  | '\t' => ['\\', 't']
  | c => [c]

/-- A text as it is written in a label. -/
def escape (text : String) : String :=
  String.ofList (text.toList.flatMap escapeChar)

/-- The label of a node: its text, and if `verbose` is set also its id, its kind
and its stretch, on lines of their own. -/
def label (verbose : Bool) (node : Node) : String :=
  let text := escape node.displayText
  if verbose then
    s!"{node.id}:{node.kind.name}" ++ "\\n" ++ text ++ "\\n" ++
      s!"Pos:{node.startPosition} - {node.endPosition}"
  else
    text

/-! ## Documents -/

/-- Where the nodes of a block are put. -/
inductive Rank where
  /-- Beside each other. -/
  | same
  /-- At the far end. -/
  | max
  deriving DecidableEq, Repr

/-- Nodes that are shown together. -/
structure Block where
  rank : Option Rank
  nodes : List Node
  deriving DecidableEq, Repr

/-- What a drawing shows. -/
structure Document where
  blocks : List Block
  edges : List Edge
  deriving DecidableEq, Repr

/-- The children of a node in the syntax tree. -/
def childrenOf (graph : Graph) (node : Node) : Except GraphError (List Node) :=
  graph.successors node.id (some [.astChild])

/-- The layers of the syntax tree from `layer` on, at most `bound` of them; the
nodes `shown` belong to earlier layers. -/
def layersFrom (graph : Graph) :
    Nat → List Node → List Node → Except GraphError (List (List Node))
  | 0, _, _ => return []
  | bound + 1, shown, layer =>
      if layer.isEmpty then
        return []
      else do
        let shown := shown ++ layer
        let children ← layer.mapM (childrenOf graph)
        let next := children.flatten.filter fun node => !shown.contains node
        return layer :: (← layersFrom graph bound shown next.eraseDups)

/-- Put nodes that are not yet shown into a block of their own. -/
def addBlock (rank : Option Rank) (nodes : List Node) (blocks : List Block) : List Block :=
  let fresh := nodes.filter fun node => !blocks.any (·.nodes.contains node)
  if fresh.isEmpty then blocks else blocks ++ [⟨rank, fresh⟩]

/-- The layers of the syntax tree.  No layer is empty and no node is in two of them,
so there are no more layers than nodes. -/
def layers (graph : Graph) (root : Node) : Except GraphError (List (List Node)) :=
  layersFrom graph graph.nodes.length [] [root]

/-- The drawing of a graph, which needs exactly one root. -/
def Document.ofGraph (graph : Graph) : Except GraphError Document := do
  let root ← graph.root
  let tree ← layers graph root
  let blocks := tree.map (⟨some .same, ·⟩)
  let blocks := addBlock none graph.comments blocks
  let blocks := addBlock none graph.symbols blocks
  let blocks := addBlock (some .max) graph.tokens blocks
  let blocks := addBlock none graph.nodes blocks
  return { blocks, edges := graph.edges }

/-! ## Text -/

/-- The line that shows a node. -/
def nodeLine (verbose : Bool) (node : Node) : String :=
  s!"  {node.id} [ label=\"{label verbose node}\"];"

/-- The line that shows an edge. -/
def edgeLine (edge : Edge) : String :=
  s!" {edge.source} -> {edge.target} [ {edgeStyle edge.kind}];"

/-- The lines that give the rank of a block. -/
def rankLines : Option Rank → List String
  | none => []
  | some .same => ["  rank=same;"]
  | some .max => ["  rank=max;"]

/-- The lines of a block. -/
def Block.lines (verbose : Bool) (block : Block) : List String :=
  [" subgraph \x7b"] ++ rankLines block.rank ++ block.nodes.map (nodeLine verbose) ++ [" \x7d"]

/-- The lines of a drawing. -/
def Document.lines (verbose : Bool) (document : Document) : List String :=
  ["digraph \x7b", " rankdir=LR;"] ++ document.blocks.flatMap (Block.lines verbose) ++
    document.edges.map edgeLine ++ ["\x7d"]

/-- The text of a drawing. -/
def Document.text (verbose : Bool) (document : Document) : String :=
  "\n".intercalate (document.lines verbose)

end ProgramGraph.Dot
