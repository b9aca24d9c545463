import ProgramGraph.Proofs.Extraction.Chain

/-!
# What a pass over lexemes adds

A pass over lexemes succeeds on every graph.  It puts one node behind the nodes of the graph for
each lexeme that belongs to no documentation, and edges into new slots; nothing that was there
before is touched.  The new nodes have ids of their own, so the new links between lexemes are one
simple path through them.
-/

namespace ProgramGraph

open Source

namespace Graph

variable {start graph : Graph} {added : List Node} {links : List Edge}

/-- A graph holds all that another one holds, with nodes behind its nodes and edges behind its
slots. -/
structure ExtendedBy (start : Graph) (added : List Node) (links : List Edge) (graph : Graph) :
    Prop where
  sourceFile : graph.sourceFile = start.sourceFile
  lines : graph.lines = start.lines
  nodes : graph.nodes = start.nodes ++ added
  slots : graph.slots = start.slots ++ (links.map some).toArray
  associations : graph.associations = start.associations
  keysOf : graph.keysOf = start.keysOf
  nextId : graph.nextId = start.nextId + added.length

namespace ExtendedBy

theorem refl (graph : Graph) : graph.ExtendedBy [] [] graph where
  sourceFile := rfl
  lines := rfl
  nodes := (List.append_nil _).symm
  slots := by simp
  associations := rfl
  keysOf := rfl
  nextId := rfl

theorem pushNode (extended : start.ExtendedBy added links graph) (node : Node) :
    start.ExtendedBy (added ++ [node]) links (graph.pushNode node) := by
  refine { extended with nodes := ?_, nextId := ?_ }
  · rw [Graph.pushNode, extended.nodes, List.append_assoc]
  · rw [Graph.pushNode, extended.nextId, List.length_append, List.length_singleton, Nat.add_assoc]

theorem pushEdge (extended : start.ExtendedBy added links graph) (edge : Edge) :
    start.ExtendedBy added (links ++ [edge]) (graph.pushEdge edge) := by
  refine { extended with slots := ?_ }
  rw [Graph.pushEdge, extended.slots]
  simp

theorem pushEdges (extended : start.ExtendedBy added links graph) (edges : List Edge) :
    start.ExtendedBy added (links ++ edges) (graph.pushEdges edges) := by
  induction edges generalizing graph links with
  | nil => exact (List.append_nil links).symm ▸ extended
  | cons edge rest ih =>
      have pushed := ih (extended.pushEdge edge)
      rwa [List.append_assoc] at pushed

theorem edges_eq (extended : start.ExtendedBy added links graph) :
    graph.edges = start.edges ++ links := by
  rw [edges, edges, extended.slots]
  simp

end ExtendedBy

end Graph

namespace TokenPass

variable {start graph : Graph} {documents : List Span} {lexemes : List Lexeme}
  {added : List Node} {links : List Edge} {pass : TokenPass}

/-- A pass leaves all of a graph and numbers its own nodes from the next id on. -/
structure Numbered (start : Graph) (lexemes : List Lexeme) (added : List Node) (links : List Edge)
    (pass : TokenPass) : Prop where
  chained : Chained start lexemes added pass
  extended : start.ExtendedBy added links pass.graph
  ids : added.map (·.id) = List.range' start.nextId added.length
  kinds : ∀ link ∈ links, link.kind = .nextToken ∨ link.kind = .lastLexicalUse

theorem numbered_start (start : Graph) : Numbered start [] [] [] { graph := start } where
  chained := chained_start start
  extended := .refl start
  ids := rfl
  kinds := nofun

theorem Numbered.next (numbered : Numbered start lexemes added links pass) (lexeme : Lexeme) :
    Numbered start (lexemes ++ [lexeme]) (added ++ [pass.nodeOf lexeme])
      (links ++ pass.links lexeme) (pass.next lexeme) where
  chained := numbered.chained.next lexeme
  extended := (numbered.extended.pushNode _).pushEdges _
  ids := by
    have own : (pass.nodeOf lexeme).id = start.nextId + added.length := numbered.extended.nextId
    rw [List.map_append, List.map_singleton, numbered.ids, own, List.length_append,
      List.length_singleton, List.range'_concat, Nat.one_mul]
  kinds := by
    intro link member
    rcases List.mem_append.mp member with earlier | own
    · exact numbered.kinds link earlier
    · exact kind_of_mem_links own

/-- What a pass adds to a graph for some lexemes. -/
structure Emits (start : Graph) (lexemes : List Lexeme) (graph : Graph) (added : List Node)
    (links : List Edge) : Prop where
  /-- All that was in the graph is there unchanged, before the new nodes and edges. -/
  extended : start.ExtendedBy added links graph
  /-- The new nodes stand for the lexemes, one for each of them in their order. -/
  shown : List.Forall₂ Node.StandsFor added lexemes
  /-- They have the ids that come next. -/
  ids : added.map (·.id) = List.range' start.nextId added.length
  /-- The new links between lexemes lead from each of these nodes to the next one. -/
  chain : links.filter (·.kind == .nextToken) = chainOf added
  /-- The other new edges lead back to the last uses of identifiers. -/
  others : ∀ link ∈ links, link.kind = .nextToken ∨ link.kind = .lastLexicalUse

/-- What each lexeme keeps of what a pass has done so far, a pass over several lexemes keeps. -/
theorem exists_foldl_next (Done : List Lexeme → List Node → List Edge → TokenPass → Prop)
    (step : ∀ {done added links pass} (lexeme : Lexeme), Done done added links pass →
      Done (done ++ [lexeme]) (added ++ [pass.nodeOf lexeme]) (links ++ pass.links lexeme)
        (pass.next lexeme))
    (lexemes : List Lexeme) {done : List Lexeme} (holds : Done done added links pass) :
    ∃ nodes edges, Done (done ++ lexemes) nodes edges (lexemes.foldl next pass) := by
  induction lexemes generalizing done added links pass with
  | nil => exact ⟨added, links, (List.append_nil done).symm ▸ holds⟩
  | cons lexeme rest ih =>
      rcases ih (step lexeme holds) with ⟨nodes, edges, last⟩
      rw [List.append_assoc] at last
      exact ⟨nodes, edges, last⟩

theorem Numbered.emits (numbered : Numbered start lexemes added links pass) :
    Emits start lexemes pass.graph added links := by
  have all := numbered.chained.links
  rw [Graph.edgesOfKind, numbered.extended.edges_eq, List.filter_append] at all
  exact ⟨numbered.extended, numbered.chained.shown, numbered.ids, List.append_cancel_left all,
    numbered.kinds⟩

/-- A pass adds a chain for the lexemes that belong to no documentation. -/
theorem exists_emits_after (start : Graph) (documents : List Span) (lexemes : List Lexeme) :
    ∃ added links, Emits start (lexemes.filter fun lexeme => !isDocumented documents lexeme.span)
      (after start documents lexemes).graph added links := by
  rcases exists_foldl_next (Numbered start) (fun lexeme holds => holds.next lexeme)
    (lexemes.filter fun lexeme => !isDocumented documents lexeme.span) (numbered_start start) with
    ⟨added, links, numbered⟩
  exact ⟨added, links, numbered.emits⟩

namespace Emits

/-- There is one link less than there are lexemes. -/
theorem length_chain (emits : Emits start lexemes graph added links) :
    (links.filter (·.kind == .nextToken)).length = lexemes.length - 1 := by
  rw [emits.chain, length_chainOf, emits.shown.length_eq]

/-- The path passes no node twice. -/
theorem nodup_ids (emits : Emits start lexemes graph added links) :
    (added.map (·.id)).Nodup := by
  rw [emits.ids]
  exact List.nodup_range'

/-- None of the new nodes has an id that was taken. -/
theorem not_contains (emits : Emits start lexemes graph added links) (invariant : start.Invariant)
    {node : Node} (member : node ∈ added) : ¬start.contains node.id := by
  have own := List.mem_map_of_mem (f := (·.id)) member
  rw [emits.ids, List.mem_range'_1] at own
  intro present
  rcases Graph.contains_iff.mp present with ⟨other, otherMember, same⟩
  have below := same ▸ invariant.id_lt_nextId other otherMember
  exact Nat.not_lt.mpr own.1 below

end Emits

/-- Where documentation lies in stretches that are apart, a pass succeeds on every graph and every
list of lexemes.  It gives a node to each lexeme that lies within none of the stretches, with a
simple path through these nodes in their order, and leaves all that was there as it was. -/
theorem emits_of_apart (start : Graph) (lexemes : List Lexeme) (apart : AreApart documents) :
    (∀ span, isDocumented documents span ↔ ∃ document ∈ documents, span.within document) ∧
      ∃ pass added links, run start documents lexemes = .ok pass ∧
        Emits start (lexemes.filter fun lexeme => !documents.any lexeme.span.within) pass.graph
          added links ∧
        (links.filter (·.kind == .nextToken)).length =
          (lexemes.filter fun lexeme => !documents.any lexeme.span.within).length - 1 ∧
        (added.map (·.id)).Nodup ∧
        (start.Reachable → ∀ node ∈ added, ¬start.contains node.id) := by
  have within : ∀ span, isDocumented documents span ↔
      ∃ document ∈ documents, span.within document :=
    fun span => isDocumented_iff apart
  have same : ∀ span, isDocumented documents span = documents.any span.within := by
    intro span
    rw [Bool.eq_iff_iff, within, List.any_eq_true]
  rcases exists_emits_after start documents lexemes with ⟨added, links, emits⟩
  simp only [same] at emits
  refine ⟨within, _, added, links, (run_eq_ok start documents lexemes).1, emits,
    emits.length_chain, emits.nodup_ids, ?_⟩
  exact fun reachable node member => emits.not_contains reachable.invariant member

/-- A comment of two lexemes that begins where another one ends, with lexemes that touch them at
both sides and one that goes beyond. -/
theorem emits_between_comments :
    AreApart [⟨9, 14⟩, ⟨2, 9⟩] ∧
      ∃ pass added links,
        run Graph.sample [⟨9, 14⟩, ⟨2, 9⟩]
          [.leaf ⟨.word, "a", ⟨0, 2⟩⟩, .leaf ⟨.mark false, "#", ⟨2, 9⟩⟩,
            .opening .square ⟨2, 9⟩, .leaf ⟨.literal, "1", ⟨8, 10⟩⟩,
            .leaf ⟨.word, "b", ⟨12, 14⟩⟩, .leaf ⟨.word, "a", ⟨14, 15⟩⟩] = .ok pass ∧
        Emits Graph.sample
          [.leaf ⟨.word, "a", ⟨0, 2⟩⟩, .leaf ⟨.literal, "1", ⟨8, 10⟩⟩,
            .leaf ⟨.word, "a", ⟨14, 15⟩⟩] pass.graph added links ∧
        (links.filter (·.kind == .nextToken)).length = 2 ∧
        (added.map (·.id)).Nodup ∧ ∀ node ∈ added, ¬Graph.sample.contains node.id := by
  have apart : AreApart [⟨9, 14⟩, ⟨2, 9⟩] := ⟨by decide, by simp [Apart], by decide⟩
  rcases (emits_of_apart Graph.sample _ apart).2 with
    ⟨pass, added, links, passed, emits, count, simple, fresh⟩
  exact ⟨apart, pass, added, links, passed, emits, count, simple, fresh Graph.reachable_sample⟩

end TokenPass

end ProgramGraph
