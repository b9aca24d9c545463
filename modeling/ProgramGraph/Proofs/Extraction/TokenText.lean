import ProgramGraph.Proofs.Extraction.Acceptance
import ProgramGraph.Proofs.Extraction.Coordinates
import ProgramGraph.Proofs.Grammar.Order

/-!
# The text of tokens

The tokens of a graph stand for the lexemes of its file that belong to no documentation, in the
order of the text.  A token shows what stands in the file where it lies, and the next one begins
where it ends or later.  Only the tokens of a documentation comment do not.  They are left out
if the comment lies within documentation that the walk over the outline has noted; a comment
where the outline does not lead, such as one among the arguments of a macro, is not noted.
-/

namespace ProgramGraph

open Source

/-! ## Lists side by side -/

section SideBySide

variable {α β : Type} {R : α → β → Prop} {S : β → β → Prop} {left : List α} {right : List β}

theorem exists_of_mem_left (matched : List.Forall₂ R left right) {a : α} (member : a ∈ left) :
    ∃ b ∈ right, R a b := by
  induction matched with
  | nil => cases member
  | cons related _ ih =>
      rcases List.mem_cons.mp member with rfl | later
      · exact ⟨_, .head _, related⟩
      · rcases ih later with ⟨b, inRest, found⟩
        exact ⟨b, .tail _ inRest, found⟩

theorem exists_of_mem_right (matched : List.Forall₂ R left right) {b : β} (member : b ∈ right) :
    ∃ a ∈ left, R a b :=
  exists_of_mem_left matched.flip member

theorem pairwise_of_forall₂ (matched : List.Forall₂ R left right) (ordered : right.Pairwise S) :
    left.Pairwise fun first next => ∃ a b, R first a ∧ R next b ∧ S a b := by
  induction matched with
  | nil => exact .nil
  | cons related rest ih =>
      rcases List.pairwise_cons.mp ordered with ⟨before, ordered⟩
      refine .cons ?_ (ih ordered)
      intro next member
      rcases exists_of_mem_left rest member with ⟨b, inRest, found⟩
      exact ⟨_, b, related, found, before b inRest⟩

end SideBySide

/-! ## Tokens of an extraction -/

namespace Graph

variable {graph : Graph} {kind : EdgeKind}

/-- Edges of a kind are left if their ends are. -/
theorem Invariant.edgesOfKind_prune (invariant : graph.Invariant)
    (kept : ∀ edge ∈ graph.edgesOfKind kind,
      graph.prune.2.contains edge.source ∧ graph.prune.2.contains edge.target) :
    graph.prune.2.edgesOfKind kind = graph.edgesOfKind kind := by
  rw [edgesOfKind, edgesOfKind, invariant.edges_prune, List.filter_filter]
  apply List.filter_congr
  intro edge member
  rw [Bool.and_eq_left_iff_imp]
  intro ofKind
  rcases kept edge (List.mem_filter.mpr ⟨member, ofKind⟩) with ⟨source, target⟩
  rw [source, target, Bool.and_true]

/-- Tokens and the path through them are left. -/
theorem Invariant.chain_prune (invariant : graph.Invariant)
    (chain : graph.edgesOfKind .nextToken = chainOf graph.tokens) :
    graph.prune.2.tokens = graph.tokens ∧
      graph.prune.2.edgesOfKind .nextToken = chainOf graph.tokens := by
  have survives {node : Node} (token : node ∈ graph.tokens) :
      graph.prune.2.contains node.id := by
    rcases mem_nodesOfKind.mp token with ⟨member, kind⟩
    have kept : ¬node.kind.isPrunable := by
      rcases List.mem_pair.mp kind with same | same <;> rw [same] <;> decide
    exact contains_iff.mpr ⟨node, invariant.mem_nodes_prune_of_kept member kept, rfl⟩
  refine ⟨invariant.nodesOfKind_prune (by decide), ?_⟩
  rw [← chain]
  apply invariant.edgesOfKind_prune
  rw [chain]
  intro edge member
  rcases exists_split_of_mem_chainOf member with ⟨before, first, next, rest, split, rfl⟩
  constructor
  · exact survives (split ▸ List.mem_append_right _ (.head _))
  · exact survives (split ▸ List.mem_append_right _ (.tail _ (.head _)))

end Graph

namespace Extraction

variable {walk : Walk} {lexemes : List Lexeme} {documents : List Span}

/-- The lexemes that belong to no documentation. -/
def undocumented (documents : List Span) (lexemes : List Lexeme) : List Lexeme :=
  lexemes.filter fun lexeme => !TokenPass.isDocumented documents lexeme.span

/-- The edges of names are no links between lexemes. -/
theorem filter_nameLinks (identifiers : Table Span NodeId) (names : List (NodeId × Span)) :
    (nameLinks identifiers names).filter (·.kind == .nextToken) = [] := by
  apply List.filter_eq_nil_iff.mpr
  intro edge member
  rcases List.mem_filterMap.mp member with ⟨name, -, found⟩
  rcases Option.map_eq_some_iff.mp found with ⟨id, -, rfl⟩
  exact Bool.false_ne_true

/-- After a walk the tokens are those of the lexemes that belong to no documentation. -/
theorem tokens_finish (noTokens : walk.graph.tokens = [])
    (noLinks : walk.graph.edgesOfKind .nextToken = []) (lexemes : List Lexeme) :
    List.Forall₂ Node.StandsFor (finish walk lexemes).graph.tokens
        (undocumented walk.documents.reverse lexemes) ∧
      (finish walk lexemes).graph.edgesOfKind .nextToken =
        chainOf (finish walk lexemes).graph.tokens := by
  obtain ⟨added, chained⟩ :=
    TokenPass.exists_chained_after walk.graph walk.documents.reverse lexemes
  have allTokens : added.filter ([NodeKind.token, .identifierToken].contains ·.kind) = added := by
    apply List.filter_eq_self.mpr
    intro node member
    rcases exists_of_mem_left chained.shown member with ⟨lexeme, -, stands⟩
    rw [stands.kind]
    exact List.contains_iff_mem.mpr (TokenPass.nodeKind_mem lexeme)
  have tokens : (finish walk lexemes).graph.tokens = added := by
    rw [Graph.tokens, Graph.nodesOfKind, nodes_finish, chained.nodes, List.filter_append, allTokens]
    exact congrArg (· ++ added) noTokens
  constructor
  · rw [tokens]
    exact chained.shown
  · have links := chained.links
    rw [noLinks, List.nil_append, Graph.edgesOfKind] at links
    rw [tokens, finish, Graph.edgesOfKind, Graph.edges_pushEdges, List.filter_append,
      filter_nameLinks, List.append_nil, links]

end Extraction

/-! ## Tokens as text -/

/-- The contents of a node are the characters from its start to its end, and there are some. -/
structure Node.Shows (source : SourceText) (node : Node) : Prop where
  positive : node.startPosition < node.endPosition
  inside : node.endPosition ≤ source.chars.length
  contents : node.contents.toList = source.slice ⟨node.startPosition, node.endPosition⟩

/-- A node stands for a lexeme of a documentation comment. -/
def Node.IsOfComment (source : SourceText) (node : Node) : Prop :=
  ∃ piece ∈ pieces source.chars, piece.isComment ∧ ∃ lexeme ∈ piece.lexemes, node.StandsFor lexeme

/-- The tokens of a graph read as the text of its file: each shows what stands where it lies, it
ends before the next one begins, and none stands for a lexeme of a documentation comment. -/
structure ReadsAsText (source : SourceText) (graph : Graph) : Prop where
  shows : ∀ node ∈ graph.tokens, node.Shows source
  ordered : ∀ edge ∈ graph.edgesOfKind .nextToken, ∃ first ∈ graph.tokens, ∃ next ∈ graph.tokens,
    edge = ⟨first.id, next.id, .nextToken⟩ ∧ first.endPosition ≤ next.startPosition
  noComment : ∀ node ∈ graph.tokens, ¬node.IsOfComment source

/-- All lexemes of the documentation comments of a file belong to documentation. -/
def HidesComments (source : SourceText) (documents : List Span) : Prop :=
  ∀ piece ∈ pieces source.chars, piece.isComment → ∀ lexeme ∈ piece.lexemes,
    TokenPass.isDocumented documents lexeme.span

/-- Where stretches of documentation are apart from each other, they hide the documentation
comments just when each of these lies within one of them. -/
theorem hidesComments_iff {source : SourceText} {documents : List Span}
    (apart : documents.Pairwise TokenPass.Apart)
    (filled : ∀ document ∈ documents, document.first < document.last) :
    HidesComments source documents ↔ ∀ piece ∈ pieces source.chars, piece.isComment →
      ∃ document ∈ documents, document.first ≤ piece.position ∧ piece.last ≤ document.last := by
  have belongs {span : Span} :
      TokenPass.isDocumented documents span ↔ ∃ document ∈ documents, span.within document :=
    TokenPass.isDocumented_iff (.of_filled apart filled)
  simp only [Span.within, Bool.and_eq_true, decide_eq_true_eq] at belongs
  constructor
  · intro hidden piece inPieces comment
    rcases exists_lexeme_of_comment comment with ⟨lexeme, inPiece, whole⟩
    have found := belongs.mp (hidden piece inPieces comment lexeme inPiece)
    rwa [whole] at found
  · intro covered piece inPieces comment lexeme inPiece
    rcases (of_mem_pieces inPieces).within inPiece with ⟨begins, -, ends⟩
    rcases covered piece inPieces comment with ⟨document, member, first, last⟩
    exact belongs.mpr ⟨document, member, first.trans begins, ends.trans last⟩

/-- Documentation that is carried over stays apart. -/
theorem SourceText.Follows.pairwise_apart {source : SourceText} {front : List Char}
    {spans : List Span} (follows : source.Follows front)
    (apart : spans.Pairwise TokenPass.Apart) :
    (spans.map source.carrySpan).Pairwise TokenPass.Apart := by
  apply List.pairwise_map.mpr
  apply apart.imp
  rintro span other (before | behind)
  · exact .inl (follows.strictMono_carry.monotone before)
  · exact .inr (follows.strictMono_carry.monotone behind)

/-- What the tokens of a graph are, for a file with documentation in certain stretches. -/
structure TokensOf (source : SourceText) (documents : List Span) (graph : Graph) : Prop where
  /-- They stand for the lexemes of the file that belong to no documentation, in their order. -/
  tokens : List.Forall₂ Node.StandsFor graph.tokens
    (Extraction.undocumented documents ((pieces source.chars).flatMap Piece.lexemes))
  /-- One path leads through all of them in this order. -/
  chain : graph.edgesOfKind .nextToken = chainOf graph.tokens
  /-- Outside documentation comments they show what stands in the file. -/
  shows : ∀ node ∈ graph.tokens, node.Shows source ∨ node.IsOfComment source
  /-- They follow each other, those of one documentation comment apart. -/
  ordered : graph.tokens.Pairwise fun first next =>
    first.endPosition ≤ next.startPosition ∨
      ∃ a b, first.StandsFor a ∧ next.StandsFor b ∧ InOneComment source.chars a b
  /-- They read as the text of the file just when no documentation comment is left. -/
  reads : ReadsAsText source graph ↔ HidesComments source documents
  /-- No documentation comment is left just when each lies within documentation. -/
  hides : HidesComments source documents ↔ ∀ piece ∈ pieces source.chars, piece.isComment →
    ∃ document ∈ documents, document.first ≤ piece.position ∧ piece.last ≤ document.last

section Tokens

variable {source : SourceText} {documents : List Span} {graph : Graph} {node : Node}
  {lexeme : Lexeme}

theorem Node.StandsFor.span (stands : node.StandsFor lexeme) :
    ⟨node.startPosition, node.endPosition⟩ = lexeme.span := by
  rw [stands.first, stands.last]

theorem Node.StandsFor.shows (stands : node.StandsFor lexeme)
    (shown : lexeme.Shows source.chars) : node.Shows source where
  positive := by
    rw [stands.first, stands.last]
    exact shown.positive
  inside := by
    rw [stands.last]
    exact shown.inside
  contents := by
    rw [stands.contents, stands.span]
    exact shown.text

/-- A lexeme that belongs to no documentation is one of a piece of the file. -/
theorem exists_piece_of_mem_undocumented
    (member : lexeme ∈ Extraction.undocumented documents
      ((pieces source.chars).flatMap Piece.lexemes)) :
    ∃ piece ∈ pieces source.chars, lexeme ∈ piece.lexemes ∧
      ¬TokenPass.isDocumented documents lexeme.span := by
  rcases List.mem_filter.mp member with ⟨inText, undocumented⟩
  rcases List.mem_flatMap.mp inText with ⟨piece, inPieces, inPiece⟩
  exact ⟨piece, inPieces, inPiece, by simpa using undocumented⟩

variable (tokens : List.Forall₂ Node.StandsFor graph.tokens
    (Extraction.undocumented documents ((pieces source.chars).flatMap Piece.lexemes)))
  (chain : graph.edgesOfKind .nextToken = chainOf graph.tokens)
include tokens

theorem shows_or_isOfComment (token : node ∈ graph.tokens) :
    node.Shows source ∨ node.IsOfComment source := by
  rcases exists_of_mem_left tokens token with ⟨lexeme, member, stands⟩
  rcases exists_piece_of_mem_undocumented member with ⟨piece, inPieces, inPiece, -⟩
  cases comment : piece.isComment with
  | true => exact .inr ⟨piece, inPieces, comment, lexeme, inPiece, stands⟩
  | false => exact .inl (stands.shows ((of_mem_pieces inPieces).shows comment inPiece))

theorem pairwise_tokens : graph.tokens.Pairwise fun first next =>
    first.endPosition ≤ next.startPosition ∨
      ∃ a b, first.StandsFor a ∧ next.StandsFor b ∧ InOneComment source.chars a b := by
  have ordered := (pairwise_lexemes source.chars).filter
    fun lexeme => !TokenPass.isDocumented documents lexeme.span
  apply (pairwise_of_forall₂ tokens ordered).imp
  rintro first next ⟨a, b, standsFirst, standsNext, before | together⟩
  · rw [← standsFirst.last, ← standsNext.first] at before
    exact .inl before
  · exact .inr ⟨a, b, standsFirst, standsNext, together⟩

/-- Where all documentation comments are hidden, no token stands for a lexeme of one. -/
theorem not_isOfComment_of_hidden (hidden : HidesComments source documents)
    (token : node ∈ graph.tokens) : ¬node.IsOfComment source := by
  rintro ⟨piece, inPieces, comment, twin, inPiece, twinStands⟩
  rcases exists_of_mem_left tokens token with ⟨lexeme, member, stands⟩
  rcases exists_piece_of_mem_undocumented member with ⟨other, otherIn, inOther, undocumented⟩
  have same : lexeme.span = twin.span := stands.span.symm.trans twinStands.span
  obtain rfl := piece_eq_of_span_eq otherIn inPieces inOther inPiece same
  exact undocumented (hidden other otherIn comment lexeme inOther)

theorem hidden_of_readsAsText (reads : ReadsAsText source graph) :
    HidesComments source documents := by
  intro piece inPieces comment lexeme inPiece
  by_contra undocumented
  have member : lexeme ∈ Extraction.undocumented documents
      ((pieces source.chars).flatMap Piece.lexemes) :=
    List.mem_filter.mpr
      ⟨List.mem_flatMap.mpr ⟨piece, inPieces, inPiece⟩, by simpa using undocumented⟩
  rcases exists_of_mem_right tokens member with ⟨node, token, stands⟩
  exact reads.noComment node token ⟨piece, inPieces, comment, lexeme, inPiece, stands⟩

include chain

theorem readsAsText_of_hidden (hidden : HidesComments source documents) :
    ReadsAsText source graph := by
  have noComment {node : Node} (token : node ∈ graph.tokens) : ¬node.IsOfComment source :=
    not_isOfComment_of_hidden tokens hidden token
  constructor
  case shows =>
    intro node token
    exact (shows_or_isOfComment tokens token).resolve_right (noComment token)
  case ordered =>
    intro edge member
    rw [chain] at member
    rcases exists_split_of_mem_chainOf member with ⟨before, first, next, rest, split, rfl⟩
    have firstToken : first ∈ graph.tokens := split ▸ List.mem_append_right _ (.head _)
    have nextToken : next ∈ graph.tokens := split ▸ List.mem_append_right _ (.tail _ (.head _))
    refine ⟨first, firstToken, next, nextToken, rfl, ?_⟩
    have ordered := pairwise_tokens tokens
    rw [split, List.pairwise_append] at ordered
    rcases (List.pairwise_cons.mp ordered.2.1).1 next (.head _) with apart | together
    · exact apart
    · rcases together with ⟨a, b, standsFirst, -, piece, inPieces, comment, inPiece, -⟩
      exact absurd ⟨piece, inPieces, comment, a, inPiece, standsFirst⟩ (noComment firstToken)
  case noComment => exact fun node token => noComment token

theorem tokensOf_of_forall₂ (apart : documents.Pairwise TokenPass.Apart)
    (filled : ∀ document ∈ documents, document.first < document.last) :
    TokensOf source documents graph where
  tokens := tokens
  chain := chain
  shows _ token := shows_or_isOfComment tokens token
  ordered := pairwise_tokens tokens
  reads := ⟨hidden_of_readsAsText tokens, readsAsText_of_hidden tokens chain⟩
  hides := hidesComments_iff apart filled

end Tokens

namespace Extraction

variable {placement : Placement} {fileName source : String} {extraction : Extraction}

/-- An outline of a source is that of its trees. -/
theorem trees_of_outlineOf {text : SourceText} {outlines : List Outline}
    (parsed : outlineOf text = .ok outlines) :
    ∃ trees, TokenTree.ofText text.syntaxChars = .ok trees ∧
      Grammar.outline trees = .ok outlines := by
  rw [outlineOf] at parsed
  split at parsed
  · next read =>
    cases parsed
    exact Graph.bind_eq_ok_iff.mp read
  · cases parsed

/-- The lexemes of a source are those of its pieces. -/
theorem eq_of_lexemesOf {text : SourceText} {lexemes : List Lexeme}
    (cut : lexemesOf text = .ok lexemes) : lexemes = (pieces text.chars).flatMap Piece.lexemes := by
  rw [lexemesOf] at cut
  split at cut
  · next trees grouped =>
    cases cut
    rw [← scan_fst, TokenTree.scan_of_ofText grouped]
  · cases cut

/-- The tokens of an accepted source, pruned or not, stand for the lexemes outside the
documentation of its outline.  They read as its text just when each documentation comment lies
within this documentation. -/
theorem tokensOf_of_run {prune : Bool}
    (accepted : run placement prune fileName source = .ok extraction) :
    ∃ outlines, outlineOf (.ofString source) = .ok outlines ∧
      TokensOf (.ofString source)
        ((Outline.documentsAll outlines).map (SourceText.ofString source).carrySpan)
        extraction.graph := by
  rcases finish_of_run accepted with ⟨outlines, lexemes, walk, parsed, cut, walked, reachable, rfl⟩
  obtain rfl := eq_of_lexemesOf cut
  rcases Walk.notes_ofFile walked with ⟨documents, noTokens, noLinks⟩
  obtain ⟨tokens, chain⟩ := tokens_finish noTokens noLinks
    ((pieces (SourceText.ofString source).chars).flatMap Piece.lexemes)
  rw [documents] at tokens
  rcases trees_of_outlineOf parsed with ⟨trees, found, outlined⟩
  have marked := Outline.marked_of_outline found outlined
  rcases SourceText.exists_follows_ofString source with ⟨front, follows⟩
  have apart := follows.pairwise_apart marked.separate
  have filled : ∀ document ∈ (Outline.documentsAll outlines).map
      (SourceText.ofString source).carrySpan, document.first < document.last :=
    List.forall_mem_map.mpr fun document member =>
      follows.strictMono_carry (marked.filled document member)
  refine ⟨outlines, parsed, ?_⟩
  cases prune with
  | false => exact tokensOf_of_forall₂ tokens chain apart filled
  | true =>
      rcases reachable.invariant.chain_prune chain with ⟨sameTokens, sameChain⟩
      apply tokensOf_of_forall₂ _ _ apart filled
      · exact (congrArg (List.Forall₂ _ · _) sameTokens).mpr tokens
      · exact sameChain.trans (congrArg chainOf sameTokens).symm

/-- A byte order mark and a struct with documentation. -/
def documentedStruct : String := "\uFEFF/** d */ struct A;"

/-- A file with a byte order mark and with documentation, the tokens of which read as its
text. -/
theorem tokensOf_documented_struct :
    ∃ extraction outlines, run highPlacement true "a.rs" documentedStruct =
        .ok extraction ∧
      outlineOf (.ofString documentedStruct) = .ok outlines ∧
      TokensOf (.ofString documentedStruct)
        ((Outline.documentsAll outlines).map
          (SourceText.ofString documentedStruct).carrySpan) extraction.graph ∧
      ReadsAsText (.ofString documentedStruct) extraction.graph := by
  have succeeds : (run highPlacement true "a.rs" documentedStruct).isOk := by
    decide +kernel
  have noted : (outlineOf (.ofString documentedStruct)).toOption.map
      Outline.documentsAll = some [⟨0, 8⟩] := by
    decide +kernel
  have hidden : HidesComments (.ofString documentedStruct)
      ([⟨0, 8⟩].map (SourceText.ofString documentedStruct).carrySpan) := by
    unfold HidesComments
    decide +kernel
  rcases exists_of_isOk succeeds with ⟨extraction, accepted⟩
  rcases tokensOf_of_run accepted with ⟨outlines, parsed, tokens⟩
  rw [parsed] at noted
  rw [← Option.some_inj.mp noted] at hidden
  exact ⟨extraction, outlines, accepted, parsed, tokens, tokens.reads.mpr hidden⟩

/-- A macro with documentation among its arguments. -/
def documentedArgument : String := "m!\x7b/** d */\x7d"

/-- A documentation comment among the arguments of a macro leaves a number sign that covers the
whole comment. -/
theorem exists_sign_of_comment (prune : Bool) :
    ∃ extraction, ofSource prune "a.rs" documentedArgument = .ok extraction ∧
      ⟨5, .token, "#", 3, 11, 1, 1⟩ ∈ extraction.graph.tokens := by
  have left : (ofSource prune "a.rs" documentedArgument).toOption.any
      (·.graph.tokens.contains ⟨5, .token, "#", 3, 11, 1, 1⟩) := by
    cases prune <;> decide +kernel
  rcases exists_of_any left with ⟨extraction, accepted, listed⟩
  exact ⟨extraction, accepted, List.contains_iff_mem.mp listed⟩

/-- The tokens of a file with a documentation comment among the arguments of a macro do not read
as its text, pruned or not. -/
theorem not_readsAsText_macro :
    ∃ plain pruned, ofSource false "a.rs" documentedArgument = .ok plain ∧
      ofSource true "a.rs" documentedArgument = .ok pruned ∧
      ¬ReadsAsText (.ofString documentedArgument) plain.graph ∧
      ¬ReadsAsText (.ofString documentedArgument) pruned.graph := by
  have stray {graph : Graph} (token : ⟨5, .token, "#", 3, 11, 1, 1⟩ ∈ graph.tokens) :
      ¬ReadsAsText (.ofString documentedArgument) graph := by
    intro reads
    have shown := (reads.shows _ token).contents
    exact absurd shown (by decide +kernel)
  rcases exists_sign_of_comment false with ⟨plain, accepted, token⟩
  rcases exists_sign_of_comment true with ⟨pruned, prunedAccepted, prunedToken⟩
  exact ⟨plain, pruned, accepted, prunedAccepted, stray token, stray prunedToken⟩

end Extraction

end ProgramGraph
