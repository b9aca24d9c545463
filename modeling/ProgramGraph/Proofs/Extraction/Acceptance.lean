import ProgramGraph.Proofs.Dot.Passes
import ProgramGraph.Proofs.Extraction.Lexemes
import ProgramGraph.Proofs.Extraction.Reachable
import ProgramGraph.Proofs.Extraction.Walk
import ProgramGraph.Proofs.Graph.Survival
import ProgramGraph.Rendering

/-!
# Accepted sources

A source is refused for its syntax or for its lexemes and for nothing else.  If it has both, it
has a graph: neither the walk over its outline nor the lexemes nor the names ask for an edge
that is refused.  The graph has one root, which covers the file, and so it can be drawn as well
as stored; pruning takes elements only and leaves all this as it is.
-/

namespace ProgramGraph

open Source

/-- A graph with one root is rendered, whatever the format. -/
theorem Rendering.content_isOk {graph : Graph} (invariant : graph.Invariant) {root : Node}
    (roots : graph.nodesOfKind [.astRoot] = [root]) (rendering : Rendering) :
    (rendering.content graph).isOk := by
  rw [Rendering.content]
  cases rendering.format with
  | json => rfl
  | bincode => rfl
  | dot =>
      have member : root ∈ graph.nodesOfKind [.astRoot] := roots ▸ List.mem_singleton_self root
      have only : graph.root = .ok root := by rw [Graph.root, roots]
      obtain ⟨document, drawn, _⟩ :=
        Dot.ofGraph_eq_ok invariant (List.mem_of_mem_filter member) only
      rw [drawn]
      rfl

namespace Extraction

variable {text : SourceText} {placement : Placement} {fileName source : String}
  {outlines : List Outline} {lexemes : List Lexeme} {walk : Walk} {extraction : Extraction}

/-- An extraction, pruned or as it is. -/
def pruned (prune : Bool) (extraction : Extraction) : Extraction :=
  if prune then { extraction with graph := extraction.graph.prune.2 } else extraction

theorem run_of_no_outline {cause : ExtractionError} (placement : Placement) (prune : Bool)
    (fileName : String) (failed : outlineOf (.ofString source) = .error cause) :
    run placement prune fileName source = .error cause := by
  rw [run, failed]
  rfl

theorem run_of_no_lexemes {cause : ExtractionError} (placement : Placement) (prune : Bool)
    (fileName : String) (parsed : outlineOf (.ofString source) = .ok outlines)
    (failed : lexemesOf (.ofString source) = .error cause) :
    run placement prune fileName source = .error cause := by
  rw [run, parsed, failed]
  rfl

/-- Of a source that has an outline and lexemes only the assembly could be refused. -/
theorem run_of_assemble (prune : Bool) (parsed : outlineOf (.ofString source) = .ok outlines)
    (cut : lexemesOf (.ofString source) = .ok lexemes)
    (assembled : assemble (.ofString source) placement fileName outlines lexemes =
      .ok extraction) :
    run placement prune fileName source = .ok (extraction.pruned prune) := by
  rw [run, parsed, cut]
  simp only [bind, Except.bind, assembled, pruned]
  split <;> rfl

/-- An accepted source has an outline and lexemes, and its extraction is assembled of them. -/
theorem assemble_of_run {prune : Bool}
    (accepted : run placement prune fileName source = .ok extraction) :
    ∃ outlines lexemes plain, outlineOf (.ofString source) = .ok outlines ∧
      lexemesOf (.ofString source) = .ok lexemes ∧
      assemble (.ofString source) placement fileName outlines lexemes = .ok plain ∧
      extraction = plain.pruned prune := by
  obtain ⟨outlines, parsed, rest⟩ := Graph.bind_eq_ok_iff.mp accepted
  obtain ⟨lexemes, cut, rest⟩ := Graph.bind_eq_ok_iff.mp rest
  split at rest
  · next plain assembled =>
    refine ⟨outlines, lexemes, plain, parsed, cut, assembled, ?_⟩
    cases prune with
    | false =>
        cases rest
        rfl
    | true =>
        cases rest
        rfl
  · cases rest

/-- After a walk no lexeme and no name is refused, and no root is added. -/
theorem assemble_of_walk {root : Node} {owners : List NodeId}
    (walked : Walk.ofFile text placement fileName outlines = .ok walk)
    (grounded : walk.Grounded root owners) (lexemes : List Lexeme) :
    assemble text placement fileName outlines lexemes = .ok (finish walk lexemes) ∧
      (finish walk lexemes).graph.nodesOfKind [.astRoot] = [root] := by
  obtain ⟨passed, passGrounded⟩ :=
    TokenPass.run_eq_ok walk.graph walk.documents.reverse lexemes
  have owned : ∀ name ∈ walk.names.reverse,
      (TokenPass.after walk.graph walk.documents.reverse lexemes).graph.contains name.1 :=
    fun name member =>
      passGrounded.grows.contains (grounded.names name (List.mem_reverse.mp member))
  have linked := linkNames_eq_ok owned
    fun span id stored => (passGrounded.identifiers span id stored).contains
  constructor
  · rw [assemble, walked]
    simp only [bind, Except.bind, passed, linked]
    rfl
  · rw [Graph.nodesOfKind, nodes_finish]
    exact passGrounded.grows.roots.trans grounded.root

/-- Whatever the outline and the lexemes are, they are assembled. -/
theorem exists_assemble_eq_ok (text : SourceText) (placement : Placement) (fileName : String)
    (outlines : List Outline) (lexemes : List Lexeme) :
    ∃ extraction, assemble text placement fileName outlines lexemes = .ok extraction ∧
      extraction.graph.nodesOfKind [.astRoot] = [Walk.rootOf text fileName] := by
  obtain ⟨walk, walked, grounded⟩ := Walk.exists_ofFile_eq_ok text placement fileName outlines
  exact ⟨_, assemble_of_walk walked grounded lexemes⟩

/-- An accepted source is walked over, and its extraction is what the walk and its lexemes come
to. -/
theorem finish_of_run {prune : Bool}
    (accepted : run placement prune fileName source = .ok extraction) :
    ∃ outlines lexemes walk, outlineOf (.ofString source) = .ok outlines ∧
      lexemesOf (.ofString source) = .ok lexemes ∧
      Walk.ofFile (.ofString source) placement fileName outlines = .ok walk ∧
      (finish walk lexemes).graph.Reachable ∧
      extraction = (finish walk lexemes).pruned prune := by
  obtain ⟨outlines, lexemes, plain, parsed, cut, assembled, rfl⟩ := assemble_of_run accepted
  obtain ⟨walk, walked, grounded⟩ :=
    Walk.exists_ofFile_eq_ok (.ofString source) placement fileName outlines
  have finished := (assemble_of_walk walked grounded lexemes).1
  obtain rfl : finish walk lexemes = plain := Except.ok.inj (finished.symm.trans assembled)
  exact ⟨outlines, lexemes, walk, parsed, cut, walked, reachable_assemble assembled, rfl⟩

theorem nodesOfKind_pruned (invariant : extraction.graph.Invariant) (prune : Bool) :
    (extraction.pruned prune).graph.nodesOfKind [.astRoot] =
      extraction.graph.nodesOfKind [.astRoot] := by
  cases prune with
  | false => rfl
  | true => exact invariant.nodesOfKind_prune (by decide)

/-- The graph of an accepted source has one root. -/
theorem roots_of_run {prune : Bool}
    (accepted : run placement prune fileName source = .ok extraction) :
    extraction.graph.nodesOfKind [.astRoot] = [Walk.rootOf (.ofString source) fileName] := by
  obtain ⟨outlines, lexemes, plain, -, -, assembled, rfl⟩ := assemble_of_run accepted
  obtain ⟨found, same, roots⟩ :=
    exists_assemble_eq_ok (.ofString source) placement fileName outlines lexemes
  obtain rfl : found = plain := Except.ok.inj (same.symm.trans assembled)
  exact (nodesOfKind_pruned (reachable_assemble assembled).invariant prune).trans roots

/-- A source with an outline and with lexemes is accepted under every file name, pruned or
not.  Its graph has one root, the node 0 from the first to the last character after a byte
order mark; it satisfies the invariant of graphs, and every rendering of it succeeds. -/
theorem accepted_of_read (placement : Placement) (prune : Bool) (fileName source : String)
    (parsed : (outlineOf (.ofString source)).isOk) (cut : (lexemesOf (.ofString source)).isOk) :
    ∃ extraction root, run placement prune fileName source = .ok extraction ∧
      extraction.graph.nodesOfKind [.astRoot] = [root] ∧ root.id = 0 ∧
      root.startPosition = 0 ∧
      root.endPosition = (SourceText.dropByteOrderMark source.toList).length ∧
      extraction.graph.Invariant ∧
      ∀ rendering : Rendering, (rendering.content extraction.graph).isOk := by
  obtain ⟨outlines, outlined⟩ := exists_of_isOk parsed
  obtain ⟨lexemes, lexed⟩ := exists_of_isOk cut
  obtain ⟨extraction, assembled, roots⟩ :=
    exists_assemble_eq_ok (.ofString source) placement fileName outlines lexemes
  have accepted := run_of_assemble prune outlined lexed assembled
  have invariant := (reachable_of_run accepted).invariant
  have rootsLeft :=
    (nodesOfKind_pruned (reachable_assemble assembled).invariant prune).trans roots
  exact ⟨_, _, accepted, rootsLeft, rfl, rfl, rfl, invariant,
    Rendering.content_isOk invariant rootsLeft⟩

/-- A byte order mark and a function with documentation and a pattern with a type. -/
def documentedLet : String := "\uFEFF/// A note.\nfn f() \x7b let x: u8 = y; \x7d"

/-- A file with a byte order mark, documentation and a pattern with a type, which is pruned. -/
theorem accepted_documented_let :
    (outlineOf (.ofString documentedLet)).isOk ∧
      (lexemesOf (.ofString documentedLet)).isOk ∧
      ∃ extraction root, run highPlacement true "a.rs" documentedLet = .ok extraction ∧
        extraction.graph.nodesOfKind [.astRoot] = [root] ∧ root.id = 0 ∧
        root.startPosition = 0 ∧ root.endPosition = 37 ∧ extraction.graph.Invariant ∧
        ∀ rendering : Rendering, (rendering.content extraction.graph).isOk := by
  have parsed : (outlineOf (.ofString documentedLet)).isOk := by decide +kernel
  have cut : (lexemesOf (.ofString documentedLet)).isOk := by decide +kernel
  exact ⟨parsed, cut, accepted_of_read highPlacement true "a.rs" _ parsed cut⟩

end Extraction

end ProgramGraph
