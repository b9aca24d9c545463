import Mathlib.Data.List.Forall2
import Mathlib.Data.List.Induction
import Mathlib.Data.List.Pairwise
import ProgramGraph.Proofs.Extraction.Lexemes

/-!
# The chain of lexemes

A pass over lexemes puts one node for each of them behind the nodes of a graph, in the order of
the lexemes, and links each of these nodes to the next one.  So the new links form one path
through the new nodes.  The lexemes that are left out are those within a stretch of
documentation, provided that such stretches are apart from each other.
-/

namespace ProgramGraph

open Source

/-- A node shows a lexeme: its kind, its text and where it stands. -/
structure Node.StandsFor (node : Node) (lexeme : Lexeme) : Prop where
  kind : node.kind = lexeme.nodeKind
  contents : node.contents = lexeme.text
  first : node.startPosition = lexeme.span.first
  last : node.endPosition = lexeme.span.last

/-- The edges of a path through nodes. -/
def chainOf : List Node → List Edge
  | first :: next :: rest => ⟨first.id, next.id, .nextToken⟩ :: chainOf (next :: rest)
  | _ => []

/-- A path goes on from its last node. -/
theorem chainOf_concat (nodes : List Node) (node : Node) :
    chainOf (nodes ++ [node]) =
      chainOf nodes ++ (nodes.getLast?.map (⟨·.id, node.id, .nextToken⟩)).toList := by
  induction nodes with
  | nil => rfl
  | cons first rest ih =>
      cases rest with
      | nil => rfl
      | cons next rest =>
          rw [List.getLast?_cons_cons]
          exact congrArg (_ :: ·) ih

theorem length_chainOf (nodes : List Node) : (chainOf nodes).length = nodes.length - 1 := by
  induction nodes with
  | nil => rfl
  | cons first rest ih =>
      cases rest with
      | nil => rfl
      | cons next rest => simpa [chainOf] using ih

/-- The edges of a path lead from nodes to the nodes behind them. -/
theorem exists_split_of_mem_chainOf {nodes : List Node} {edge : Edge}
    (member : edge ∈ chainOf nodes) :
    ∃ before first next rest, nodes = before ++ first :: next :: rest ∧
      edge = ⟨first.id, next.id, .nextToken⟩ := by
  induction nodes with
  | nil => cases member
  | cons first rest ih =>
      cases rest with
      | nil => cases member
      | cons next rest =>
          rcases List.mem_cons.mp member with rfl | later
          · exact ⟨[], first, next, rest, rfl, rfl⟩
          · rcases ih later with ⟨before, source, target, others, split, same⟩
            exact ⟨first :: before, source, target, others, congrArg (first :: ·) split, same⟩

namespace TokenPass

variable {start : Graph} {lexemes : List Lexeme} {added : List Node} {pass : TokenPass}

/-- What a pass has done to a graph after some lexemes: it has put nodes for them behind those
of the graph, and a path through these nodes behind its links between lexemes. -/
structure Chained (start : Graph) (lexemes : List Lexeme) (added : List Node)
    (pass : TokenPass) : Prop where
  nodes : pass.graph.nodes = start.nodes ++ added
  shown : List.Forall₂ Node.StandsFor added lexemes
  previous : pass.previous = added.getLast?.map (·.id)
  links : pass.graph.edgesOfKind .nextToken = start.edgesOfKind .nextToken ++ chainOf added

theorem chained_start (start : Graph) : Chained start [] [] { graph := start } where
  nodes := (List.append_nil _).symm
  shown := .nil
  previous := rfl
  links := (List.append_nil _).symm

theorem standsFor_nodeOf (pass : TokenPass) (lexeme : Lexeme) :
    (pass.nodeOf lexeme).StandsFor lexeme :=
  ⟨rfl, rfl, rfl, rfl⟩

theorem kind_of_mem_chainLinks {edge : Edge} (member : edge ∈ pass.chainLinks) :
    edge.kind = .nextToken := by
  rw [chainLinks, Option.mem_toList, Option.map_eq_some_iff] at member
  rcases member with ⟨earlier, -, rfl⟩
  rfl

theorem kind_of_mem_useLinks {lexeme : Lexeme} {edge : Edge}
    (member : edge ∈ pass.useLinks lexeme) : edge.kind = .lastLexicalUse := by
  rw [useLinks] at member
  split at member
  · rw [Option.mem_toList, Option.map_eq_some_iff] at member
    rcases member with ⟨earlier, -, rfl⟩
    rfl
  · cases member

/-- An edge that comes with a lexeme links two lexemes or goes back to a last use. -/
theorem kind_of_mem_links {lexeme : Lexeme} {edge : Edge} (member : edge ∈ pass.links lexeme) :
    edge.kind = .nextToken ∨ edge.kind = .lastLexicalUse :=
  (List.mem_append.mp member).imp kind_of_mem_chainLinks kind_of_mem_useLinks

/-- Of the edges that come with a lexeme, the one from the lexeme before is of one kind and the
one back to the last use of another. -/
theorem filter_links (pass : TokenPass) (lexeme : Lexeme) :
    (pass.links lexeme).filter (·.kind == .nextToken) = pass.chainLinks ∧
      (pass.links lexeme).filter (·.kind == .lastLexicalUse) = pass.useLinks lexeme := by
  have chain : ∀ edge ∈ pass.chainLinks, edge.kind = .nextToken := fun _ => kind_of_mem_chainLinks
  have uses : ∀ edge ∈ pass.useLinks lexeme, edge.kind = .lastLexicalUse :=
    fun _ => kind_of_mem_useLinks
  rw [links, List.filter_append, List.filter_append]
  constructor
  · rw [List.filter_eq_self.mpr, List.filter_eq_nil_iff.mpr, List.append_nil]
    · exact fun edge member => by simp [uses edge member]
    · exact fun edge member => by simp [chain edge member]
  · rw [List.filter_eq_nil_iff.mpr, List.filter_eq_self.mpr, List.nil_append]
    · exact fun edge member => by simp [uses edge member]
    · exact fun edge member => by simp [chain edge member]

/-- One more lexeme adds one more node and links it to the node before. -/
theorem Chained.next (chained : Chained start lexemes added pass) (lexeme : Lexeme) :
    Chained start (lexemes ++ [lexeme]) (added ++ [pass.nodeOf lexeme]) (pass.next lexeme) := by
  constructor
  case nodes =>
    rw [TokenPass.next, Graph.nodes_pushEdges, Graph.pushNode, chained.nodes, List.append_assoc]
  case shown => exact List.rel_append chained.shown (.cons (standsFor_nodeOf pass lexeme) .nil)
  case previous =>
    rw [List.getLast?_concat]
    rfl
  case links =>
    have old : (pass.graph.pushNode (pass.nodeOf lexeme)).edges = pass.graph.edges := rfl
    have before := chained.links
    rw [Graph.edgesOfKind] at before
    rw [TokenPass.next, Graph.edgesOfKind, Graph.edges_pushEdges, List.filter_append, old, before,
      (filter_links pass lexeme).1, chainOf_concat, chainLinks, chained.previous, Option.map_map,
      List.append_assoc]
    rfl

theorem Chained.foldl_next (chained : Chained start lexemes added pass) (more : List Lexeme) :
    ∃ nodes, Chained start (lexemes ++ more) nodes (more.foldl TokenPass.next pass) := by
  induction more generalizing lexemes added pass with
  | nil => exact ⟨added, (List.append_nil lexemes).symm ▸ chained⟩
  | cons lexeme rest ih =>
      rcases ih (chained.next lexeme) with ⟨nodes, last⟩
      rw [List.append_assoc] at last
      exact ⟨nodes, last⟩

/-- A pass adds one node for each lexeme that belongs to no documentation. -/
theorem exists_chained_after (start : Graph) (documents : List Span) (lexemes : List Lexeme) :
    ∃ added, Chained start (lexemes.filter fun lexeme => !isDocumented documents lexeme.span) added
      (after start documents lexemes) :=
  (chained_start start).foldl_next _

/-! ### What belongs to documentation -/

variable {documents : List Span} {span best document : Span} {position : Nat}

theorem lastBefore_concat (position : Nat) (documents : List Span) (span : Span) :
    lastBefore position (documents ++ [span]) =
      if span.first ≤ position && (lastBefore position documents).all (·.first ≤ span.first) then
        some span
      else lastBefore position documents := by
  rw [lastBefore, List.foldl_concat]
  rfl

/-- Where a stretch begins no later than a position, one is found. -/
theorem exists_lastBefore (member : document ∈ documents) (before : document.first ≤ position) :
    ∃ best, lastBefore position documents = some best := by
  induction documents using List.reverseRecOn with
  | nil => cases member
  | append_singleton documents span ih =>
      rw [lastBefore_concat]
      split
      · exact ⟨span, rfl⟩
      · next refused =>
        rcases List.mem_append.mp member with earlier | here
        · exact ih earlier
        · rw [List.mem_singleton.mp here] at before
          cases found : lastBefore position documents with
          | some best => exact ⟨best, rfl⟩
          | none => simp [found, before] at refused

/-- What is found begins last of the stretches that begin no later than a position. -/
theorem beginsLast_of_lastBefore (found : lastBefore position documents = some best) :
    best ∈ documents ∧ best.first ≤ position ∧
      ∀ document ∈ documents, document.first ≤ position → document.first ≤ best.first := by
  induction documents using List.reverseRecOn generalizing best with
  | nil => cases found
  | append_singleton documents span ih =>
      rw [lastBefore_concat] at found
      split at found
      · next taken =>
        cases found
        rw [Bool.and_eq_true, decide_eq_true_eq] at taken
        refine ⟨List.mem_append_right _ (.head _), taken.1, ?_⟩
        intro document member before
        rcases List.mem_append.mp member with earlier | here
        · rcases exists_lastBefore earlier before with ⟨other, found⟩
          have atMost : other.first ≤ span.first := by simpa [found] using taken.2
          exact ((ih found).2.2 document earlier before).trans atMost
        · rw [List.mem_singleton.mp here]
      · next refused =>
        rcases ih found with ⟨member, begins, last⟩
        refine ⟨List.mem_append_left _ member, begins, ?_⟩
        intro document listed before
        rcases List.mem_append.mp listed with earlier | here
        · exact last document earlier before
        · rw [List.mem_singleton.mp here] at before ⊢
          simp only [found, before, Option.all_some, decide_true, Bool.true_and,
            decide_eq_true_eq] at refused
          omega

/-- Two stretches have no character in common. -/
def Apart (span other : Span) : Prop :=
  span.last ≤ other.first ∨ other.last ≤ span.first

/-- What belongs to documentation lies within it. -/
theorem exists_within_of_isDocumented (documented : isDocumented documents span) :
    ∃ document ∈ documents, document.first ≤ span.first ∧ span.last ≤ document.last := by
  rw [isDocumented, Option.any_eq_true] at documented
  rcases documented with ⟨best, found, ends⟩
  rcases beginsLast_of_lastBefore found with ⟨member, begins, -⟩
  exact ⟨best, member, begins, of_decide_eq_true ends⟩

/-- Stretches of documentation that each begin at a place of their own and have no character in
common. -/
structure AreApart (documents : List Span) : Prop where
  begins : documents.Pairwise fun document other => document.first ≠ other.first
  apart : documents.Pairwise Apart
  ordered : ∀ document ∈ documents, document.first ≤ document.last

/-- Stretches that are not empty begin at places of their own if they are apart. -/
theorem AreApart.of_filled (apart : documents.Pairwise Apart)
    (filled : ∀ document ∈ documents, document.first < document.last) : AreApart documents where
  begins := by
    refine apart.imp_of_mem ?_
    intro document other member otherMember
    have positive := filled document member
    have otherPositive := filled other otherMember
    unfold Apart
    omega
  apart := apart
  ordered := fun document member => (filled document member).le

/-- Among stretches of documentation that are apart from each other, a stretch belongs to
documentation just when it lies within one of them. -/
theorem isDocumented_iff (apart : AreApart documents) :
    isDocumented documents span ↔ ∃ document ∈ documents, span.within document := by
  simp only [Span.within, Bool.and_eq_true, decide_eq_true_eq]
  constructor
  · exact exists_within_of_isDocumented
  · rintro ⟨document, member, begins, ends⟩
    rw [isDocumented, Option.any_eq_true]
    rcases exists_lastBefore member begins with ⟨best, found⟩
    rcases beginsLast_of_lastBefore found with ⟨bestMember, bestBegins, last⟩
    refine ⟨best, found, ?_⟩
    by_cases same : best = document
    · exact decide_eq_true (same ▸ ends)
    · have symmetric : Std.Symm Apart := ⟨fun _ _ => Or.symm⟩
      have otherPlaces : Std.Symm fun document other : Span => document.first ≠ other.first :=
        ⟨fun _ _ => Ne.symm⟩
      have differs := apart.begins.forall bestMember member same
      have between := last document member begins
      have bestOrdered := apart.ordered best bestMember
      apply decide_eq_true
      rcases apart.apart.forall bestMember member same with ahead | behind
      · omega
      · omega

end TokenPass

end ProgramGraph
