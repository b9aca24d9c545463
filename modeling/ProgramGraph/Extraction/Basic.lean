import ProgramGraph.Extraction.Elements
import ProgramGraph.Extraction.Tokens
import ProgramGraph.Grammar.File
import ProgramGraph.Graph.Removal

/-!
# From source to graph

The graph of a source file holds a node for each element of its syntax, for its
documentation, for the types that are written in it and for its lexemes.  A name
that occurs is linked from the element that it belongs to, to the lexeme that it
is; a name without a lexeme of its own, such as a keyword, stays without a link.
-/

namespace ProgramGraph

open Source

/-- Why a source file has no graph. -/
inductive ExtractionError where
  /-- The text is no syntax: the line and the column of the first thing that does
  not fit. -/
  | syntaxError (line column : Nat)
  /-- The text of the whole file cannot be cut into lexemes. -/
  | lexemes
  /-- The graph refused a step. -/
  | graph (cause : GraphError)
  deriving DecidableEq, Repr

/-- The text of a refusal. -/
def ExtractionError.message : ExtractionError → String
  | syntaxError line column => s!"parse error at {line}:{column}"
  | lexemes => "lex error"
  | graph cause => cause.message

/-- The graph of a source file, with the types that its patterns are given. -/
structure Extraction where
  graph : Graph
  types : TypeTable
  deriving Repr

namespace Extraction

/-- The outline of a source file. -/
def outlineOf (source : SourceText) : Except ExtractionError (List Outline) :=
  match TokenTree.ofText source.syntaxChars >>= Grammar.outline with
  | .ok outlines => .ok outlines
  | .error position =>
      let (line, column) := source.syntaxLines.locate position
      .error (.syntaxError line column)

/-- The lexemes of a source file. -/
def lexemesOf (source : SourceText) : Except ExtractionError (List Lexeme) :=
  match TokenTree.ofText source.chars with
  | .ok trees => .ok (TokenTree.flatten trees)
  | .error _ => .error .lexemes

/-- Link the elements to the names that belong to them. -/
def linkNames (pass : TokenPass) (names : List (NodeId × Span)) : Except GraphError Graph :=
  names.foldlM
    (fun graph (owner, span) =>
      match pass.identifiers.get? span with
      | some id => (·.2) <$> graph.addEdge owner id .associatedToken
      | none => pure graph)
    pass.graph

/-- The graph of an outline and of the lexemes of the same file. -/
def assemble (source : SourceText) (placement : Placement) (fileName : String)
    (outlines : List Outline) (lexemes : List Lexeme) : Except GraphError Extraction := do
  let walk ← Walk.ofFile source placement fileName outlines
  let pass ← TokenPass.run walk.graph walk.documents.reverse lexemes
  return { graph := ← linkNames pass walk.names.reverse, types := walk.types }

/-- The graph of a source file whose elements are put where `placement` says;
`prune` removes the elements that lead to nothing. -/
def run (placement : Placement) (prune : Bool) (fileName source : String) :
    Except ExtractionError Extraction := do
  let source := SourceText.ofString source
  let outlines ← outlineOf source
  let lexemes ← lexemesOf source
  match assemble source placement fileName outlines lexemes with
  | .ok extraction =>
      if prune then return { extraction with graph := extraction.graph.prune.2 }
      else return extraction
  | .error cause => throw (.graph cause)

/-- A placement at high addresses, one after the other. -/
def highPlacement : Placement :=
  fun visited => Nat.pow 2 44 + visited

/-- The graph of a source file. -/
def ofSource (prune : Bool) (fileName source : String) : Except ExtractionError Extraction :=
  run highPlacement prune fileName source

end Extraction

end ProgramGraph
