import ProgramGraph.Extraction.SourceText
import ProgramGraph.Graph.Basic
import ProgramGraph.Outline
import ProgramGraph.TypeTable
import ProgramGraph.Unicode.Blank

/-!
# Nodes of syntax elements

A walk over the outline of a file gives each element its node, in the order of
visiting, below the node of the element that encloses it.  Documentation gets a
node that points at the element it is about.  A pattern that is given a type is
linked to the node of that type; types that are written alike, blanks apart, have
one node.

The names that occur are only noted here, with the element that each belongs to:
they are linked to their lexemes when those have nodes.

Each element has an address, and its syntax key is made of the address and of the
sort of the element.  Where the addresses lie does not matter; a placement says
where the element that is visited as the `n`-th one is put.
-/

namespace ProgramGraph

open Source (Span)

namespace SyntaxKey

/-- The key of an element at an address: the address moved up by three bits, with the
sort in the bits below.  Elements of different sorts may share an address; `sort` is less
than eight.  A key is a word of 64 bits, so an address keeps its last 61 bits only. -/
def of (address sort : Nat) : SyntaxKey :=
  (UInt64.ofNat address <<< 3 ||| UInt64.ofNat sort).toNat

/-- The sort of a file as a whole. -/
def fileSort : Nat := 0

/-- The sort of documentation. -/
def documentSort : Nat := 6

/-- The sort of an element. -/
def sortOf : Form → Nat
  | .item _ => 1
  | .statement _ => 2
  | .expression _ => 3
  | .pattern _ => 4
  | .type _ => 5

end SyntaxKey

/-- Where the elements of a file are put. -/
abbrev Placement := Nat → Nat

/-- The state of a walk over an outline. -/
structure Walk where
  graph : Graph
  /-- How many elements have been visited. -/
  visited : Nat
  /-- The names that occur, last one first, each with the element it belongs to. -/
  names : List (NodeId × Span) := []
  /-- The stretches of the documentation, last one first. -/
  documents : List Span := []
  /-- The nodes of the types, by how they are written. -/
  typeNodes : Table String NodeId := {}
  types : TypeTable := {}

/-- A step of a walk. -/
abbrev Walker := StateT Walk (Except GraphError)

namespace Walk

/-- Create the node of an element. -/
def create (placement : Placement) (sort : Nat) (kind : NodeKind) (contents : String)
    (span : Span) : Walker NodeId := do
  let walk ← get
  let key := SyntaxKey.of (placement walk.visited) sort
  let (node, graph) := walk.graph.create kind contents span.first span.last key
  set { walk with graph, visited := walk.visited + 1 }
  return node.id

/-- Add an edge. -/
def link (source target : NodeId) (kind : EdgeKind) : Walker Unit := do
  let walk ← get
  let (_, graph) ← walk.graph.addEdge source target kind
  set { walk with graph }

/-- The node of a type, which is created when it is first written. -/
def typeNode (name : String) (span : Span) : Walker NodeId := do
  let walk ← get
  match walk.typeNodes.get? name with
  | some id => return id
  | none =>
      let (node, graph) := walk.graph.createDetached .type name span.first span.last
      set { walk with graph, typeNodes := walk.typeNodes.set name node.id }
      return node.id

/-- Give a pattern the type that is written in a stretch of the file. -/
def giveType (source : SourceText) (pattern : NodeId) (span : Span) : Walker Unit := do
  let name := String.ofList (Unicode.squeeze (source.slice span))
  let id ← typeNode name span
  link pattern id .hasType
  modify fun walk => { walk with types := walk.types.insert pattern name }

/-- Visit an outline below the node `owner`.  The answer is the node of an
element. -/
def visit (source : SourceText) (placement : Placement) (owner : NodeId) :
    Outline → Walker (Option NodeId)
  | .element form span attributes children => do
      let sort := SyntaxKey.sortOf form
      let id ← create placement sort .astElement form.label (source.carrySpan span)
      link owner id .astChild
      visitAll source placement id attributes
      visitAll source placement id children
      return some id
  | .name span => do
      modify fun walk => { walk with names := (owner, source.carrySpan span) :: walk.names }
      return none
  | .document span text => do
      let span := source.carrySpan span
      modify fun walk => { walk with documents := span :: walk.documents }
      let id ← create placement SyntaxKey.documentSort .commentJavadoc text span
      link id owner .comment
      return none
  | .ascription attributes pattern type => do
      visitAll source placement owner attributes
      let id ← visit source placement owner pattern
      let _ ← visit source placement owner type
      if let some id := id then
        giveType source id (source.carrySpan type.span)
      return none
where
  /-- Visit outlines one after the other below the node `owner`. -/
  visitAll (source : SourceText) (placement : Placement) (owner : NodeId) :
      List Outline → Walker Unit
    | [] => return ()
    | outline :: outlines => do
        let _ ← visit source placement owner outline
        visitAll source placement owner outlines

/-- The walk over the outline of a file, from its root node on. -/
def ofFile (source : SourceText) (placement : Placement) (fileName : String)
    (outlines : List Outline) : Except GraphError Walk := do
  let start : Walk := { graph := .empty fileName source.lines, visited := 0 }
  let walker : Walker Unit := do
    let root ← create placement SyntaxKey.fileSort .astRoot "" ⟨0, source.chars.length⟩
    visit.visitAll source placement root outlines
  let (_, walk) ← walker.run start
  return walk

end Walk

end ProgramGraph
