import ProgramGraph.Proofs.Extraction.TokenText
import ProgramGraph.Proofs.Extraction.Visits

/-!
# Links from elements to names

A name that a walk has met is linked to the identifier that stands in the file where the name
is carried over to, if there is one.  No two identifiers of a file stand in one place, so the
table of a pass over the lexemes finds the one that does.

These links come behind all edges of the walk and of the lexemes, in the order in which the names
were met, and pruning leaves them all: an element that is linked to a lexeme stays.
-/

namespace ProgramGraph

open Source

/-! ## Identifiers by their places -/

namespace Source.Lexeme

variable {lexemes : List Lexeme} {lexeme twin : Lexeme}

/-- Identifiers are words. -/
theorem exists_word_of_identifier (identifier : lexeme.nodeKind = .identifierToken) :
    ∃ text span, lexeme = .leaf ⟨.word, text, span⟩ := by
  unfold nodeKind at identifier
  split at identifier
  · exact ⟨_, _, rfl⟩
  · cases identifier

/-- Two lexemes stand in different places if both are identifiers. -/
def Differ (first next : Lexeme) : Prop :=
  first.nodeKind = .identifierToken → next.nodeKind = .identifierToken → first.span ≠ next.span

/-- Identifiers that keep the order stand in different places. -/
theorem pairwise_differ (ordered : lexemes.Pairwise Precedes)
    (positive : ∀ lexeme ∈ lexemes, lexeme.span.first < lexeme.span.last) :
    lexemes.Pairwise Differ := by
  apply ordered.imp_of_mem
  intro first next member _ precedes firstIs nextIs same
  rcases exists_word_of_identifier firstIs with ⟨text, span, rfl⟩
  rcases exists_word_of_identifier nextIs with ⟨otherText, otherSpan, rfl⟩
  have ends := precedes rfl rfl
  rw [← same] at ends
  exact Nat.not_le_of_lt (positive _ member) ends

/-- An identifier is known by its place. -/
theorem eq_of_span_eq (differ : lexemes.Pairwise Differ) (member : lexeme ∈ lexemes)
    (twinMember : twin ∈ lexemes) (identifier : lexeme.nodeKind = .identifierToken)
    (twinIdentifier : twin.nodeKind = .identifierToken) (same : lexeme.span = twin.span) :
    lexeme = twin := by
  have symmetric : Std.Symm Differ := ⟨fun _ _ differ first next =>
    (differ next first).symm⟩
  by_contra other
  exact differ.forall member twinMember other identifier twinIdentifier same

end Source.Lexeme

namespace Graph

/-- The identifier that covers a stretch of the file. -/
def identifierAt? (graph : Graph) (span : Span) : Option Node :=
  graph.tokens.find? fun node =>
    node.kind == .identifierToken && node.hasSpan span.first span.last

variable {graph : Graph} {span : Span} {node : Node}

theorem identifierAt?_eq_some (found : graph.identifierAt? span = some node) :
    node ∈ graph.tokens ∧ node.kind = .identifierToken ∧
      node.startPosition = span.first ∧ node.endPosition = span.last := by
  have member := List.mem_of_find?_eq_some found
  have placed := List.find?_some found
  simp only [Node.hasSpan, Bool.and_eq_true, beq_iff_eq] at placed
  exact ⟨member, placed⟩

end Graph

/-! ## The table of identifiers -/

namespace TokenPass

variable {graph : Graph} {done lexemes : List Lexeme} {pass : TokenPass}

/-- The tokens of a pass stand for the lexemes so far, and its table finds the identifiers among
them by their places. -/
structure Indexed (done : List Lexeme) (pass : TokenPass) : Prop where
  tokens : ∀ node ∈ pass.graph.tokens, ∃ lexeme ∈ done, node.StandsFor lexeme
  identifiers : ∀ span, pass.identifiers.get? span = (pass.graph.identifierAt? span).map (·.id)

theorem indexed_start (noTokens : graph.tokens = []) : Indexed [] { graph } where
  tokens node member := by
    rw [noTokens] at member
    cases member
  identifiers span := by
    rw [Graph.identifierAt?, noTokens]
    rfl

theorem tokens_next (pass : TokenPass) (lexeme : Lexeme) :
    (pass.next lexeme).graph.tokens = pass.graph.tokens ++ [pass.nodeOf lexeme] := by
  have nodes : (pass.next lexeme).graph.nodes = pass.graph.nodes ++ [pass.nodeOf lexeme] :=
    Graph.nodes_pushEdges _ _
  have isToken : [NodeKind.token, .identifierToken].contains (pass.nodeOf lexeme).kind :=
    List.contains_iff_mem.mpr (nodeKind_mem lexeme)
  rw [Graph.tokens, Graph.nodesOfKind, nodes, List.filter_append, List.filter_singleton, isToken]
  rfl

/-- A lexeme on its own answers to its place if it is an identifier. -/
theorem find?_nodeOf (pass : TokenPass) (lexeme : Lexeme) (span : Span) :
    ([pass.nodeOf lexeme].find? fun node =>
        node.kind == .identifierToken && node.hasSpan span.first span.last) =
      if lexeme.nodeKind = .identifierToken ∧ lexeme.span = span then some (pass.nodeOf lexeme)
      else none := by
  rcases placed : lexeme.span with ⟨first, last⟩
  rcases span with ⟨other, end'⟩
  simp [List.find?_singleton, nodeOf, Graph.freshNode, Node.hasSpan, placed]

/-- One more lexeme is found, too, if it stands in a place of its own. -/
theorem Indexed.next {lexeme : Lexeme} (indexed : Indexed done pass)
    (differ : ∀ earlier ∈ done, earlier.Differ lexeme) :
    Indexed (done ++ [lexeme]) (pass.next lexeme) := by
  constructor
  · intro node member
    rw [tokens_next] at member
    rcases List.mem_append.mp member with earlier | last
    · rcases indexed.tokens node earlier with ⟨other, inDone, stands⟩
      exact ⟨other, List.mem_append_left _ inDone, stands⟩
    · rw [List.mem_singleton.mp last]
      exact ⟨lexeme, List.mem_append_right _ (.head _), standsFor_nodeOf pass lexeme⟩
  · intro span
    have others := indexed.identifiers span
    rw [Graph.identifierAt?] at others
    rw [Graph.identifierAt?, tokens_next, List.find?_append, find?_nodeOf, TokenPass.next]
    dsimp only
    by_cases identifier : lexeme.nodeKind = .identifierToken
    · rw [if_pos identifier, Table.get?_set]
      split
      · next same =>
        have none : pass.graph.identifierAt? span = none := by
          by_contra some
          rcases Option.ne_none_iff_exists'.mp some with ⟨node, found⟩
          rcases Graph.identifierAt?_eq_some found with ⟨token, kind, first, last⟩
          rcases indexed.tokens node token with ⟨other, inDone, stands⟩
          apply differ other inDone (stands.kind.symm.trans kind) identifier
          rw [← stands.span, first, last, same]
        rw [Graph.identifierAt?] at none
        rw [none, if_pos ⟨identifier, same⟩]
        rfl
      · next other =>
        rw [if_neg fun both => other both.2, Option.or_none]
        exact others
    · rw [if_neg identifier, if_neg fun both => identifier both.1, Option.or_none]
      exact others

theorem Indexed.foldl_next (indexed : Indexed done pass)
    (differ : (done ++ lexemes).Pairwise Lexeme.Differ) :
    Indexed (done ++ lexemes) (lexemes.foldl TokenPass.next pass) := by
  induction lexemes generalizing done pass with
  | nil => exact (List.append_nil done).symm ▸ indexed
  | cons lexeme rest ih =>
      have before : ∀ earlier ∈ done, earlier.Differ lexeme := fun earlier member =>
        (List.pairwise_append.mp differ).2.2 earlier member lexeme (.head _)
      have split : done ++ lexeme :: rest = (done ++ [lexeme]) ++ rest := by simp
      rw [split] at differ ⊢
      exact ih (indexed.next before) differ

/-- The edges that come with a lexeme are of two kinds. -/
theorem edgesOfKind_next (pass : TokenPass) (lexeme : Lexeme) {kind : EdgeKind}
    (other : kind ∉ [EdgeKind.nextToken, .lastLexicalUse]) :
    (pass.next lexeme).graph.edgesOfKind kind = pass.graph.edgesOfKind kind := by
  have none : (pass.links lexeme).filter (·.kind == kind) = [] := by
    apply List.filter_eq_nil_iff.mpr
    intro edge member same
    apply other
    rw [← eq_of_beq same]
    simpa using kind_of_mem_links member
  rw [next, Graph.edgesOfKind, Graph.edges_pushEdges, List.filter_append, none, List.append_nil]
  rfl

theorem edgesOfKind_foldl_next (pass : TokenPass) (lexemes : List Lexeme) {kind : EdgeKind}
    (other : kind ∉ [EdgeKind.nextToken, .lastLexicalUse]) :
    (lexemes.foldl next pass).graph.edgesOfKind kind = pass.graph.edgesOfKind kind := by
  induction lexemes generalizing pass with
  | nil => rfl
  | cons lexeme rest ih => exact (ih (pass.next lexeme)).trans (edgesOfKind_next pass lexeme other)

/-- A pass adds tokens only. -/
theorem nodesOfKind_after (start : Graph) (documents : List Span) (lexemes : List Lexeme)
    {kinds : List NodeKind} (others : ∀ kind ∈ kinds, kind ∉ [NodeKind.token, .identifierToken]) :
    (after start documents lexemes).graph.nodesOfKind kinds = start.nodesOfKind kinds := by
  rcases exists_chained_after start documents lexemes with ⟨added, chained⟩
  have none : added.filter (kinds.contains ·.kind) = [] := by
    apply List.filter_eq_nil_iff.mpr
    intro node member listed
    rcases exists_of_mem_left chained.shown member with ⟨lexeme, -, stands⟩
    apply others node.kind (List.contains_iff_mem.mp listed)
    rw [stands.kind]
    exact nodeKind_mem lexeme
  rw [Graph.nodesOfKind, chained.nodes, List.filter_append, none, List.append_nil]
  rfl

end TokenPass

/-! ## Links of an extraction -/

namespace Graph

variable {graph : Graph} {edge : Edge}

/-- A link to an identifier is not pruned. -/
theorem Planted.link_survives (planted : graph.Planted) (live : edge ∈ graph.edges)
    (isLink : edge.kind = .associatedToken) :
    graph.prune.2.contains edge.source ∧ graph.prune.2.contains edge.target := by
  have invariant := planted.invariant
  obtain ⟨source, token, member, same, kind⟩ := planted.fits edge live
  rw [isLink] at kind
  have kept : ¬token.kind.isPrunable := by
    rw [List.mem_singleton.mp kind]
    decide
  have supported : graph.Supported edge.source :=
    ⟨edge.target, .single ⟨edge, live, rfl, rfl⟩, .inl ⟨token, member, same, kept⟩⟩
  exact ⟨invariant.contains_prune_iff.mpr ⟨source.contains, supported⟩,
    contains_iff.mpr ⟨token, invariant.mem_nodes_prune_of_kept member kept, same⟩⟩

end Graph

namespace Extraction

variable {source : SourceText} {walk : Walk} {lexemes : List Lexeme} {outlines : List Outline}
  {placed : List Walk.Placed} {met : List (NodeId × Span)} {graph : Graph}

/-- The links of names to the identifiers of a graph. -/
def linksOf (source : SourceText) (graph : Graph) (met : List (NodeId × Span)) : List Edge :=
  met.filterMap fun name =>
    (graph.identifierAt? (source.carrySpan name.2)).map (⟨name.1, ·.id, .associatedToken⟩)

/-- After a walk the edges of most kinds are those of the walk, with the links of names. -/
theorem edgesOfKind_finish (walk : Walk) (lexemes : List Lexeme) {kind : EdgeKind}
    (other : kind ∉ [EdgeKind.nextToken, .lastLexicalUse]) :
    (finish walk lexemes).graph.edgesOfKind kind = walk.graph.edgesOfKind kind ++
      if kind = .associatedToken then
        nameLinks (TokenPass.after walk.graph walk.documents.reverse lexemes).identifiers
          walk.names.reverse
      else [] := by
  have passed : (TokenPass.after walk.graph walk.documents.reverse lexemes).graph.edgesOfKind
      kind = walk.graph.edgesOfKind kind :=
    TokenPass.edgesOfKind_foldl_next { graph := walk.graph } _ other
  rw [Graph.edgesOfKind] at passed
  rw [finish, Graph.edgesOfKind, Graph.edges_pushEdges, List.filter_append, passed]
  congr 1
  have areLinks : ∀ edge ∈ nameLinks (TokenPass.after walk.graph walk.documents.reverse
      lexemes).identifiers walk.names.reverse, edge.kind = .associatedToken := by
    intro edge member
    rcases List.mem_filterMap.mp member with ⟨name, -, linked⟩
    rcases Option.map_eq_some_iff.mp linked with ⟨id, -, rfl⟩
    rfl
  split
  · next same =>
    apply List.filter_eq_self.mpr
    intro edge member
    rw [areLinks edge member, same]
    rfl
  · next differs =>
    apply List.filter_eq_nil_iff.mpr
    intro edge member same
    exact differs ((eq_of_beq same).symm.trans (areLinks edge member))

/-- After a walk every name is linked to the identifier that it is. -/
theorem links_finish (noTokens : walk.graph.tokens = [])
    (noLinks : walk.graph.edgesOfKind .associatedToken = [])
    (names : walk.names = (met.map (Walk.note source)).reverse)
    (differ : lexemes.Pairwise Lexeme.Differ) :
    (finish walk lexemes).graph.edgesOfKind .associatedToken =
      linksOf source (finish walk lexemes).graph met := by
  have shownDiffer : (undocumented walk.documents.reverse lexemes).Pairwise Lexeme.Differ :=
    differ.sublist List.filter_sublist
  have indexed := (TokenPass.indexed_start noTokens).foldl_next shownDiffer
  have found : ∀ span,
      (TokenPass.after walk.graph walk.documents.reverse lexemes).identifiers.get? span =
        ((finish walk lexemes).graph.identifierAt? span).map (·.id) := by
    intro span
    rw [Graph.identifierAt?, Graph.tokens, Graph.nodesOfKind, nodes_finish]
    exact indexed.identifiers span
  rw [edgesOfKind_finish walk lexemes (by decide), noLinks, if_pos rfl, List.nil_append, names,
    List.reverse_reverse, nameLinks, List.filterMap_map, linksOf]
  apply List.filterMap_congr
  intro name _
  dsimp only [Function.comp_apply, Walk.note]
  rw [found, Option.map_map]
  rfl

/-- What a graph shows of a file: the lexemes outside the documentation of its outline, the
elements that a walk has placed, the types that patterns are given, and the links to the names
that the walk has met. -/
structure Depicts (source : SourceText) (outlines : List Outline) (lexemes : List Lexeme)
    (placed : List Walk.Placed) (met : List (NodeId × Span)) (graph : Graph) : Prop where
  planted : graph.Planted
  differ : lexemes.Pairwise Lexeme.Differ
  tokens : List.Forall₂ Node.StandsFor graph.tokens
    (undocumented ((Outline.documentsAll outlines).map source.carrySpan) lexemes)
  links : graph.edgesOfKind .associatedToken = linksOf source graph met
  elements : ∀ node ∈ graph.astNodes, ∃ element ∈ placed, element.ShownBy source node
  tree : ∀ element ∈ placed, graph.contains element.owner → graph.contains element.id →
    graph.Owns element.owner element.id
  types : ∀ node ∈ graph.typeNodes,
    ∃ span ∈ Outline.annotationsAll outlines, Walk.ShowsType source span node

namespace Depicts

/-- An identifier is found by its place. -/
theorem identifierAt?_eq (depicts : Depicts source outlines lexemes placed met graph)
    {token : Node} (member : token ∈ graph.tokens) (identifier : token.kind = .identifierToken) :
    graph.identifierAt? ⟨token.startPosition, token.endPosition⟩ = some token := by
  let Apart (node other : Node) : Prop :=
    node.kind = .identifierToken → other.kind = .identifierToken →
      ¬(node.startPosition = other.startPosition ∧ node.endPosition = other.endPosition)
  have symmetric : Std.Symm Apart :=
    ⟨fun _ _ apart first next same => apart next first ⟨same.1.symm, same.2.symm⟩⟩
  have apart : graph.tokens.Pairwise Apart := by
    apply (pairwise_of_forall₂ depicts.tokens (depicts.differ.sublist List.filter_sublist)).imp
    rintro node other ⟨lexeme, twin, stands, twinStands, differ⟩ isFirst isNext ⟨first, last⟩
    apply differ (stands.kind.symm.trans isFirst) (twinStands.kind.symm.trans isNext)
    rw [← stands.span, ← twinStands.span, first, last]
  cases found : graph.identifierAt? ⟨token.startPosition, token.endPosition⟩ with
  | none =>
      have missed := List.find?_eq_none.mp found token member
      simp [identifier, Node.hasSpan] at missed
  | some node =>
      rcases Graph.identifierAt?_eq_some found with ⟨inTokens, kind, first, last⟩
      by_contra other
      have different : node ≠ token := fun same => other (congrArg some same)
      exact apart.forall inTokens member different kind identifier ⟨first, last⟩

/-- The links to an identifier come from the names that are carried over to its place. -/
theorem edgesInto_token (depicts : Depicts source outlines lexemes placed met graph)
    {token : Node} (member : token ∈ graph.tokens) (identifier : token.kind = .identifierToken) :
    graph.edgesInto token.id (some [.associatedToken]) =
      (met.filter fun name =>
        source.carrySpan name.2 == ⟨token.startPosition, token.endPosition⟩).map
          (⟨·.1, token.id, .associatedToken⟩) := by
  have links := depicts.links
  have split : graph.edgesInto token.id (some [.associatedToken]) =
      (graph.edgesOfKind .associatedToken).filter (·.target == token.id) := by
    rw [Graph.edgesInto, Graph.edgesOfKind, List.filter_filter]
    apply List.filter_congr
    intro edge _
    rw [Bool.eq_iff_iff]
    simp [Graph.admits]
  rw [split, links, linksOf, List.filter_filterMap, ← List.filterMap_eq_map, List.filterMap_filter]
  apply List.filterMap_congr
  intro name _
  split
  · next same =>
    rw [eq_of_beq same, depicts.identifierAt?_eq member identifier]
    simp
  · next other =>
    cases found : graph.identifierAt? (source.carrySpan name.2) with
    | none => rfl
    | some node =>
        rcases Graph.identifierAt?_eq_some found with ⟨inTokens, -, first, last⟩
        have differs : node.id ≠ token.id := by
          intro sameId
          have same : node = token := List.inj_on_of_nodup_map
            depicts.planted.invariant.nodup_ids (Graph.mem_nodesOfKind.mp inTokens).1
            (Graph.mem_nodesOfKind.mp member).1 sameId
          apply other
          rw [beq_iff_eq, ← same, first, last]
        simp [differs]

end Depicts

/-- Pruning leaves what a graph shows of a file, but for some of the elements. -/
theorem Depicts.prune (depicts : Depicts source outlines lexemes placed met graph) :
    Depicts source outlines lexemes placed met graph.prune.2 := by
  have invariant := depicts.planted.invariant
  have sameTokens : graph.prune.2.tokens = graph.tokens := invariant.nodesOfKind_prune (by decide)
  constructor
  · exact depicts.planted.prune
  · exact depicts.differ
  · rw [sameTokens]
    exact depicts.tokens
  · have sameLinks : graph.prune.2.edgesOfKind .associatedToken =
        graph.edgesOfKind .associatedToken := by
      apply invariant.edgesOfKind_prune
      intro edge member
      rcases List.mem_filter.mp member with ⟨live, isLink⟩
      exact depicts.planted.link_survives live (eq_of_beq isLink)
    rw [sameLinks, depicts.links]
    simp only [linksOf, Graph.identifierAt?, sameTokens]
  · intro node member
    rcases Graph.mem_astNodes.mp member with ⟨inGraph, kind⟩
    rw [invariant.nodes_prune] at inGraph
    exact depicts.elements node (Graph.mem_astNodes.mpr ⟨List.mem_of_mem_filter inGraph, kind⟩)
  · intro element member owner inner
    have left (id : NodeId) (survives : graph.prune.2.contains id) : graph.contains id :=
      (invariant.contains_prune_iff.mp survives).1
    have owns := depicts.tree element member (left _ owner) (left _ inner)
    rw [Graph.Owns, invariant.edges_prune]
    exact List.mem_filter.mpr ⟨owns, Bool.and_eq_true_iff.mpr ⟨owner, inner⟩⟩
  · rw [typeNodes_prune invariant]
    exact depicts.types

/-- What a walk records shows in the graph that it comes to. -/
theorem depicts_finish (fileName : String)
    (planted : (finish walk lexemes).graph.Planted)
    (records : Walk.Records source (.atRoot source fileName) walk placed met
      (Outline.annotationsAll outlines))
    (documents : walk.documents.reverse = (Outline.documentsAll outlines).map source.carrySpan)
    (noTokens : walk.graph.tokens = []) (noChain : walk.graph.edgesOfKind .nextToken = [])
    (differ : lexemes.Pairwise Lexeme.Differ) :
    Depicts source outlines lexemes placed met (finish walk lexemes).graph := by
  have ofKind {kinds : List NodeKind}
      (others : ∀ kind ∈ kinds, kind ∉ [NodeKind.token, .identifierToken]) :
      (finish walk lexemes).graph.nodesOfKind kinds = walk.graph.nodesOfKind kinds := by
    rw [Graph.nodesOfKind, nodes_finish]
    exact TokenPass.nodesOfKind_after walk.graph walk.documents.reverse lexemes others
  constructor
  · exact planted
  · exact differ
  · rw [← documents]
    exact (tokens_finish noTokens noChain lexemes).1
  · apply links_finish noTokens records.links _ differ
    exact records.names.trans (List.append_nil _)
  · intro node member
    rw [Graph.astNodes, ofKind (by decide)] at member
    apply (records.elements node member).resolve_left
    exact List.not_mem_nil
  · intro element member _ _
    have edge : element.edge ∈ (finish walk lexemes).graph.edgesOfKind .astChild := by
      rw [edgesOfKind_finish walk lexemes (by decide), records.tree]
      apply List.mem_append_left
      exact List.mem_append_right _ (List.mem_map_of_mem member)
    exact List.mem_of_mem_filter edge
  · intro node member
    rw [Graph.typeNodes, ofKind (by decide)] at member
    apply (records.types node member).resolve_left
    exact List.not_mem_nil

/-- The lexemes of a file keep the order of marks and are not empty. -/
theorem ordered_of_lexemesOf (cut : lexemesOf source = .ok lexemes) :
    lexemes.Pairwise Lexeme.Precedes ∧
      ∀ lexeme ∈ lexemes, lexeme.span.first < lexeme.span.last := by
  rw [eq_of_lexemesOf cut]
  exact ⟨pairwise_precedes source.chars, fun lexeme member => positive_of_mem_lexemes member⟩

/-- The graph of a source, pruned or not, shows the file. -/
theorem depicts_of_run {placement : Placement} {prune : Bool} {fileName text : String}
    {extraction : Extraction} (distinct : placement.Separates text)
    (accepted : run placement prune fileName text = .ok extraction) :
    ∃ outlines lexemes, outlineOf (.ofString text) = .ok outlines ∧
      lexemesOf (.ofString text) = .ok lexemes ∧
      Depicts (.ofString text) outlines lexemes
        (Walk.placedAll (.ofString text) 0 outlines (.atRoot (.ofString text) fileName))
        (Walk.metAll (.ofString text) 0 outlines (.atRoot (.ofString text) fileName))
        extraction.graph := by
  rcases assemble_of_run accepted with ⟨outlines, lexemes, plain, parsed, cut, assembled, rfl⟩
  refine ⟨outlines, lexemes, parsed, cut, ?_⟩
  rcases Walk.exists_ofFile_eq_ok (.ofString text) placement fileName outlines with
    ⟨walk, walked, -⟩
  rcases Walk.notes_ofFile walked with ⟨documents, noTokens, noChain⟩
  rcases ordered_of_lexemesOf cut with ⟨ordered, positive⟩
  have followed := Walk.unkeyed_of_ofFile (distinct outlines parsed) walked
  have finished : plain.unkeyed = finish walk.unkeyed lexemes := by
    rw [followed]
    exact unkeyed_of_assemble (distinct outlines parsed) assembled
  have steps := steps_of_assemble (distinct outlines parsed) assembled
  have unkeyedPlanted : plain.unkeyed.graph.Planted :=
    steps.keeps (P := (·.graph.Planted)) Step.planted (planted_atRoot _ fileName)
  have unkeyed : Depicts (.ofString text) outlines lexemes
      (Walk.placedAll (.ofString text) 0 outlines (.atRoot (.ofString text) fileName))
      (Walk.metAll (.ofString text) 0 outlines (.atRoot (.ofString text) fileName))
      plain.unkeyed.graph := by
    have records := Walk.records_followAll (.ofString text) 0 outlines
      (.atRoot (.ofString text) fileName)
    rw [finished] at unkeyedPlanted ⊢
    refine depicts_finish fileName unkeyedPlanted ?_ documents noTokens noChain
      (Lexeme.pairwise_differ ordered positive)
    rw [followed]
    exact records
  -- the keys of a graph do not show in it
  have depicts : Depicts (.ofString text) outlines lexemes _ _ plain.graph :=
    ⟨planted_of_run distinct (run_of_assemble false parsed cut assembled), unkeyed.differ,
      unkeyed.tokens, unkeyed.links, unkeyed.elements, unkeyed.tree, unkeyed.types⟩
  cases prune with
  | false => exact depicts
  | true => exact depicts.prune

end Extraction

end ProgramGraph
