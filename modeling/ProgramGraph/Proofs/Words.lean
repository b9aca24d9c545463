import ProgramGraph.Record

/-!
# Records of 64-bit numbers

Ids, positions and lines are unbounded numbers here.  Where they are stored they have
64 bits, so what is said about stored records is said about records whose numbers fit.
-/

namespace ProgramGraph

/-- The first number that does not fit 64 bits. -/
def wordBound : Nat :=
  Nat.pow 2 64

/-- The numbers of a node fit 64 bits. -/
structure Node.FitsWords (node : Node) : Prop where
  id : node.id < wordBound
  startPosition : node.startPosition < wordBound
  endPosition : node.endPosition < wordBound
  startLine : node.startLine < wordBound
  endLine : node.endLine < wordBound

/-- The numbers of an edge fit 64 bits. -/
structure Edge.FitsWords (edge : Edge) : Prop where
  source : edge.source < wordBound
  target : edge.target < wordBound

/-- All numbers of a record fit 64 bits. -/
structure Record.FitsWords (record : Record) : Prop where
  nodes : ∀ node ∈ record.nodes, node.FitsWords
  edges : ∀ edge ∈ record.edges, edge.FitsWords

instance (node : Node) : Decidable node.FitsWords :=
  decidable_of_iff
    (node.id < wordBound ∧ node.startPosition < wordBound ∧ node.endPosition < wordBound ∧
      node.startLine < wordBound ∧ node.endLine < wordBound)
    ⟨fun ⟨id, startPosition, endPosition, startLine, endLine⟩ =>
      ⟨id, startPosition, endPosition, startLine, endLine⟩,
      fun fits => ⟨fits.id, fits.startPosition, fits.endPosition, fits.startLine, fits.endLine⟩⟩

instance (edge : Edge) : Decidable edge.FitsWords :=
  decidable_of_iff (edge.source < wordBound ∧ edge.target < wordBound)
    ⟨fun ⟨source, target⟩ => ⟨source, target⟩, fun fits => ⟨fits.source, fits.target⟩⟩

instance (record : Record) : Decidable record.FitsWords :=
  decidable_of_iff
    ((∀ node ∈ record.nodes, node.FitsWords) ∧ ∀ edge ∈ record.edges, edge.FitsWords)
    ⟨fun ⟨nodes, edges⟩ => ⟨nodes, edges⟩, fun fits => ⟨fits.nodes, fits.edges⟩⟩

/-- A record with the greatest number, a loop, and characters of every written length
among quotes, backslashes and controls. -/
def Record.sample : Record where
  sourceFile := "é"
  nodes := [⟨wordBound - 1, .syntheticAstElement, "\"\\\n\x1b→𝄞", 0, 6, 1, 2⟩,
    ⟨0, .token, "", 0, 0, 1, 1⟩]
  edges := [⟨wordBound - 1, wordBound - 1, .methodSignature⟩]

end ProgramGraph
