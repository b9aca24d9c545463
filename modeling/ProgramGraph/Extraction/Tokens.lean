import ProgramGraph.Graph.Basic
import ProgramGraph.Source.TokenTree

/-!
# Nodes of lexemes

Each lexeme of a file gets a node, in the order of the text, and is linked to the
next one.  An identifier is linked back to the last lexeme before it with the same
text.  The lexemes that documentation stands for get no nodes.
-/

namespace ProgramGraph

open Source

/-- The state of a pass over the lexemes of a file. -/
structure TokenPass where
  graph : Graph
  /-- The node of the lexeme before. -/
  previous : Option NodeId := none
  /-- The last node of each identifier. -/
  lastUse : Table String NodeId := {}
  /-- The nodes of the identifiers by their stretches. -/
  identifiers : Table Span NodeId := {}

namespace TokenPass

/-- The stretch among `documents` that begins last of those that begin no later
than `position`. -/
def lastBefore (position : Nat) (documents : List Span) : Option Span :=
  documents.foldl
    (fun best span =>
      if span.first ≤ position && best.all (·.first ≤ span.first) then some span else best)
    none

/-- Whether a stretch belongs to documentation.  It is enough to look at the
documentation that begins last before it. -/
def isDocumented (documents : List Span) (span : Span) : Bool :=
  (lastBefore span.first documents).any (span.last ≤ ·.last)

/-- Add an edge from the node before, if there is one. -/
def linkFrom (graph : Graph) (source : Option NodeId) (target : NodeId) (kind : EdgeKind) :
    Except GraphError Graph :=
  match source with
  | some source => return (← graph.addEdge source target kind).2
  | none => return graph

/-- Give one lexeme its node. -/
def add (pass : TokenPass) (lexeme : Lexeme) : Except GraphError TokenPass := do
  let span := lexeme.span
  let (node, graph) := pass.graph.createDetached lexeme.nodeKind lexeme.text span.first span.last
  let graph ← linkFrom graph pass.previous node.id .nextToken
  if lexeme.nodeKind = .identifierToken then
    let graph ← match pass.lastUse.get? lexeme.text with
      | some earlier => (·.2) <$> graph.addEdge node.id earlier .lastLexicalUse
      | none => pure graph
    return {
      graph
      previous := some node.id
      lastUse := pass.lastUse.set lexeme.text node.id
      identifiers := pass.identifiers.set span node.id }
  else
    return { pass with graph, previous := some node.id }

/-- Give every lexeme that belongs to no documentation its node. -/
def run (graph : Graph) (documents : List Span) (lexemes : List Lexeme) :
    Except GraphError TokenPass :=
  (lexemes.filter fun lexeme => !isDocumented documents lexeme.span).foldlM add { graph }

end TokenPass

end ProgramGraph
