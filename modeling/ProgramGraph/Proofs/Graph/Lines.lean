import ProgramGraph.Proofs.Graph.Steps
import ProgramGraph.Proofs.Lines

/-!
# Lines of nodes

A node is given the lines of its positions when it is created, and no operation changes them
later.  So after every history the lines of the nodes count the line feeds of the text that the
graph was made for.
-/

namespace ProgramGraph

variable {lines : LineMap}

/-- The lines of the nodes are those of their positions. -/
def Graph.Lined (graph : Graph) (lines : LineMap) : Prop :=
  graph.lines = lines ∧ ∀ node ∈ graph.nodes, node.startLine = lines.lineNumber node.startPosition ∧
    node.endLine = lines.lineNumber node.endPosition

namespace Graph

variable {graph next : Graph} {operation : Operation} {answer : Except GraphError Outcome}

namespace Lined

theorem pushNode (lined : graph.Lined lines) (kind : NodeKind) (contents : String)
    (first last : Nat) :
    (graph.pushNode (graph.freshNode kind contents first last)).Lined lines := by
  refine ⟨lined.1, fun node member => ?_⟩
  rcases List.mem_append.mp member with earlier | new
  · exact lined.2 node earlier
  · rw [List.mem_singleton.mp new, ← lined.1]
    exact ⟨rfl, rfl⟩

theorem discardSlot (lined : graph.Lined lines) (slot : Slot) :
    (graph.discardSlot slot).Lined lines := by
  rcases graph.discardSlot_frame slot with ⟨_, _, _, _, frame⟩
  rw [frame]
  exact lined

theorem withoutNode (lined : graph.Lined lines) (id : NodeId) :
    (graph.withoutNode id).Lined lines := by
  rcases graph.withoutNode_frame id with ⟨_, _, _, _, frame⟩
  rw [frame]
  exact ⟨lined.1, fun node member => lined.2 node (List.mem_filter.mp member).1⟩

end Lined

/-- No operation changes the lines of a node or of the text. -/
theorem Effect.lined (effect : Effect graph operation answer next) (lined : graph.Lined lines) :
    next.Lined lines := by
  cases effect with
  | create_free => exact lined.pushNode _ _ _ _
  | createDetached => exact lined.pushNode _ _ _ _
  | removeNode => exact lined.withoutNode _
  | removeEdge => exact lined.discardSlot _
  | removeEdgeAt => exact lined.discardSlot _
  | prune removals =>
      exact removals.induct (P := (·.Lined lines)) (fun _ id lined _ => lined.withoutNode id) lined
  | _ => exact lined

theorem Invariant.lined_runAll (invariant : graph.Invariant) (lined : graph.Lined lines)
    (history : List Operation) : (Operation.runAll graph history).Lined lines := by
  induction history generalizing graph with
  | nil => exact lined
  | cons operation rest ih =>
      exact ih (invariant.run operation) ((invariant.effect_run operation).lined lined)

end Graph

/-! ## Lines of a text -/

namespace LineMap

/-- The line of a position by the line feeds before it. -/
def countLine (text : List Char) (position : Nat) : Nat :=
  1 + (text.take (min position text.length)).count '\n'

theorem lineNumber_ofChars (text : List Char) (position : Nat) :
    (ofChars text).lineNumber position = countLine text position := by
  have counted := countP_startsFrom 0 position text
  rw [Nat.zero_add] at counted
  rw [countLine, ← List.take_eq_take_min, ← counted, Nat.add_comm]
  rfl

/-- The lines of a text count its line feeds, and nodes have the lines of their positions. -/
structure CountsLineFeeds (text : String) : Prop where
  lineNumber_eq : ∀ position, (ofText text).lineNumber position = countLine text.toList position
  /-- Halving the beginnings of lines leads there as well, whether it hits or misses. -/
  line_search : ∀ position,
    ((ofText text).search position).line = (ofText text).lineNumber position
  monotone : Monotone (ofText text).lineNumber
  one_le_lineNumber : ∀ position, 1 ≤ (ofText text).lineNumber position
  lineNumber_le_lineCount : ∀ position,
    (ofText text).lineNumber position ≤ (ofText text).lineCount
  lineCount_eq : (ofText text).lineCount = 1 + text.toList.count '\n'
  /-- After every history of a graph that was made for the text. -/
  nodes : ∀ sourceFile history,
    ∀ node ∈ (Operation.runAll (.empty sourceFile (ofText text)) history).nodes,
      node.startLine = countLine text.toList node.startPosition ∧
        node.endLine = countLine text.toList node.endPosition

theorem countsLineFeeds (text : String) : CountsLineFeeds text := by
  constructor
  case lineNumber_eq => exact lineNumber_ofChars text.toList
  case line_search => exact line_search (pairwise_starts_ofChars text.toList)
  case monotone => exact fun _ _ le => (ofText text).lineNumber_mono le
  case one_le_lineNumber => exact (ofText text).lineNumber_pos
  case lineNumber_le_lineCount => exact (ofText text).lineNumber_le_lineCount
  case lineCount_eq =>
    rw [lineCount, Nat.add_comm, ofText, ofChars, length_startsFrom]
  case nodes =>
    intro sourceFile history node member
    have empty : (Graph.empty sourceFile (ofText text)).Lined (ofText text) :=
      ⟨rfl, fun _ member => absurd member List.not_mem_nil⟩
    have lined := (Graph.Invariant.empty sourceFile (ofText text)).lined_runAll empty history
    rw [← lineNumber_ofChars, ← lineNumber_ofChars]
    exact lined.2 node member

end LineMap

end ProgramGraph
