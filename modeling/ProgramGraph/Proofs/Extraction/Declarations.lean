import ProgramGraph.Proofs.Extraction.Alignment

/-!
# The names of declarations

An element that declares a name is asked for its identifier.  The answer is the first identifier
that was linked to the element, and the names of an element are linked in the order in which they
are visited: those of its attributes first, then the path of a visibility with brackets, then the
name that it declares, and behind it all names of generics, parameters and bodies.  So what stands
behind the declared name never changes the answer, and what stands before it does so if it is no
keyword.
-/

namespace ProgramGraph

open Source

/-! ## Declarations in a walk -/

namespace Form

/-- The labels of the elements that declare a name themselves. -/
def declaringLabels : List String :=
  ["PatIdent", "ItemFn", "ItemStruct", "ItemEnum", "ItemUnion", "ItemTrait", "ItemType",
    "ItemConst", "ItemStatic", "ItemMod"]

/-- A label tells whether an element declares a name itself. -/
theorem declares_iff (form : Form) : form.declares ↔ form.label ∈ declaringLabels := by
  cases form with
  | item form => cases form <;> decide
  | statement form => cases form <;> decide
  | expression form => cases form <;> decide +revert
  | pattern form => cases form <;> simp [label, declaringLabels]
  | type form => cases form <;> decide +revert

end Form

namespace Walk

variable {source : SourceText} {trees : List TokenTree} {element : Placed}

/-- An element that a walk has placed shows the name that it declares. -/
def Placed.IsDeclaration (trees : List TokenTree) (element : Placed) : Prop :=
  ∃ run word visible, Outline.Declares trees run word visible element.form element.span
    element.attributes element.children

mutual

theorem isDeclaration_of_mem_placed (owner : NodeId) :
    (outline : Outline) → (walk : Walk) → outline.Sound trees →
      element ∈ placed source owner outline walk → element.form.declares →
        element.IsDeclaration trees
  | .element form span attributes children, walk, sound, member, declares => by
      rcases List.mem_cons.mp member with rfl | below
      · exact sound.1 declares
      rcases List.mem_append.mp below with inAttributes | inChildren
      · exact isDeclaration_of_mem_placedAll _ attributes _ sound.2.1 inAttributes declares
      · exact isDeclaration_of_mem_placedAll _ children _ sound.2.2 inChildren declares
  | .ascription attributes pattern type, walk, sound, member, declares => by
      rcases List.mem_append.mp member with inAttributes | inBoth
      · exact isDeclaration_of_mem_placedAll _ attributes _ sound.1 inAttributes declares
      rcases List.mem_append.mp inBoth with inPattern | inType
      · exact isDeclaration_of_mem_placed _ pattern _ sound.2.1 inPattern declares
      · exact isDeclaration_of_mem_placed _ type _ sound.2.2.1 inType declares

/-- What a walk over sound outlines has placed shows the names that it declares. -/
theorem isDeclaration_of_mem_placedAll (owner : NodeId) :
    (outlines : List Outline) → (walk : Walk) → Outline.SoundAll trees outlines →
      element ∈ placedAll source owner outlines walk → element.form.declares →
        element.IsDeclaration trees
  | outline :: outlines, walk, sound, member, declares => by
      rcases List.mem_append.mp member with here | later
      · exact isDeclaration_of_mem_placed _ outline walk sound.1 here declares
      · exact isDeclaration_of_mem_placedAll _ outlines _ sound.2 later declares

end

end Walk

namespace Outline

variable {trees run : List TokenTree} {word : Leaf} {visible : List Span} {form : Form}
  {span : Span} {attributes children : List Outline}

theorem ownNamesAll_append (front back : List Outline) :
    ownNamesAll (front ++ back) = ownNamesAll front ++ ownNamesAll back := by
  induction front with
  | nil => rfl
  | cons outline front ih =>
      rw [List.cons_append, ownNamesAll, ownNamesAll, ih, List.append_assoc]

theorem ownNamesAll_names (spans : List Span) : ownNamesAll (spans.map name) = spans := by
  induction spans with
  | nil => rfl
  | cons span spans ih => rw [List.map_cons, ownNamesAll, ih, ownNames, List.singleton_append]

/-- The names in a declaration begin with the path of its visibility and the declared name. -/
theorem Declares.names_prefix
    (declares : Declares trees run word visible form span attributes children) :
    visible ++ [word.span] <+: ownNamesAll children := by
  rcases declares.children with ⟨behind, rfl⟩
  rw [ownNamesAll_append, ownNamesAll_append, ownNamesAll_names]
  exact List.prefix_append _ _

end Outline

/-- The words among trees are lexemes of them. -/
theorem Source.TokenTree.of_mem_words {run : List TokenTree} {word : Leaf}
    (member : word ∈ words run) : word.form = .word ∧ .leaf word ∈ flatten run := by
  rcases List.mem_filterMap.mp member with ⟨tree, inRun, isWord⟩
  split at isWord
  · cases isWord
    rcases List.append_of_mem inRun with ⟨before, behind, rfl⟩
    rw [flatten_append, flatten_cons]
    exact ⟨rfl, List.mem_append_right _ (.head _)⟩
  · cases isWord

/-- The name that is declared in a run is one of its words. -/
theorem Form.mem_words_of_declared? {form : Form} {run : List TokenTree} {word : Leaf}
    (declared : form.declared? run = some word) : word ∈ TokenTree.words run := by
  have member := List.mem_of_find?_eq_some declared
  cases announced : form.keyword? with
  | none => rwa [announced, wordsAfter] at member
  | some keyword =>
      rw [announced, wordsAfter] at member
      exact (List.dropWhile_sublist _).subset (List.mem_of_mem_drop member)

/-! ## The first identifier among names -/

namespace Source.Lexeme

variable {lexemes : List Lexeme} {lexeme : Lexeme} {spans : List Span} {span : Span}

/-- The identifier that stands in a stretch. -/
def identifierIn? (lexemes : List Lexeme) (span : Span) : Option Lexeme :=
  lexemes.find? fun lexeme => lexeme.nodeKind == .identifierToken && lexeme.span == span

/-- The first identifier that stands in one of some stretches. -/
def firstIdentifier? (lexemes : List Lexeme) (spans : List Span) : Option Lexeme :=
  spans.findSome? (identifierIn? lexemes)

theorem of_identifierIn? (found : identifierIn? lexemes span = some lexeme) :
    lexeme ∈ lexemes ∧ lexeme.nodeKind = .identifierToken ∧ lexeme.span = span := by
  have stands := List.find?_some found
  rw [Bool.and_eq_true, beq_iff_eq, beq_iff_eq] at stands
  exact ⟨List.mem_of_find?_eq_some found, stands⟩

/-- Identifiers that stand in different places are found by their places. -/
theorem identifierIn?_span (differ : lexemes.Pairwise Differ) (member : lexeme ∈ lexemes)
    (identifier : lexeme.nodeKind = .identifierToken) :
    identifierIn? lexemes lexeme.span = some lexeme := by
  cases found : identifierIn? lexemes lexeme.span with
  | none =>
      have missed := List.find?_eq_none.mp found lexeme member
      simp [identifier] at missed
  | some twin =>
      rcases of_identifierIn? found with ⟨twinMember, twinIdentifier, same⟩
      rw [eq_of_span_eq differ twinMember member twinIdentifier identifier same]

/-- What stands behind an identifier does not change which identifier is the first. -/
theorem firstIdentifier?_append (differ : lexemes.Pairwise Differ) (member : lexeme ∈ lexemes)
    (identifier : lexeme.nodeKind = .identifierToken) (before behind : List Span) :
    firstIdentifier? lexemes (before ++ lexeme.span :: behind) =
      some ((firstIdentifier? lexemes before).getD lexeme) := by
  rw [firstIdentifier?, List.findSome?_append, List.findSome?_cons,
    identifierIn?_span differ member identifier]
  exact Option.or_some

/-- Words in one place are the same word. -/
theorem text_eq_of_span_eq {text other : String} (ordered : lexemes.Pairwise Precedes)
    (positive : ∀ lexeme ∈ lexemes, lexeme.span.first < lexeme.span.last)
    (member : .leaf ⟨.word, text, span⟩ ∈ lexemes)
    (otherMember : .leaf ⟨.word, other, span⟩ ∈ lexemes) : text = other := by
  let Apart (first next : Lexeme) : Prop := first.beginsMark → first.endsMark →
    next.beginsMark → next.endsMark → first.span ≠ next.span
  have symmetric : Std.Symm Apart :=
    ⟨fun _ _ apart begins ends nextBegins nextEnds => (apart nextBegins nextEnds begins ends).symm⟩
  have apart : lexemes.Pairwise Apart := by
    apply ordered.imp_of_mem
    intro first next firstIn _ precedes _ ends begins _ same
    have before := precedes ends begins
    rw [← same] at before
    exact Nat.not_le_of_lt (positive first firstIn) before
  by_contra different
  refine apart.forall member otherMember ?_ rfl rfl rfl rfl rfl
  intro same
  cases same
  exact different rfl

end Source.Lexeme

namespace Extraction

variable {source : SourceText} {trees : List TokenTree} {outlines : List Outline}
  {lexemes : List Lexeme} {elements : List Walk.Placed} {met : List (NodeId × Span)}
  {graph : Graph} {front : List Char} {element : Walk.Placed} {node token : Node} {span : Span}
  {text : String}

/-! ## What is linked first -/

/-- The links of an element lead to the identifiers among its own names, in order. -/
theorem Depicts.linksOfElement (depicts : Depicts source outlines lexemes elements met graph)
    (own : met.filter (·.1 == element.id) = element.ownNames.map (element.id, ·)) :
    (graph.edgesOfKind .associatedToken).filter (·.source == element.id) =
      element.ownNames.filterMap fun span =>
        (graph.identifierAt? (source.carrySpan span)).map
          (⟨element.id, ·.id, .associatedToken⟩) := by
  have apart : (graph.edgesOfKind .associatedToken).filter (·.source == element.id) =
      linksOf source graph (met.filter (·.1 == element.id)) := by
    rw [depicts.links, linksOf, linksOf, List.filter_filterMap, List.filterMap_filter]
    apply List.filterMap_congr
    intro name _
    cases graph.identifierAt? (source.carrySpan name.2) with
    | none =>
        rw [Option.map_none, Option.filter_none]
        exact (ite_self none).symm
    | some token => simp [Option.filter]
  rw [apart, own, linksOf, List.filterMap_map]
  rfl

/-- An element answers with the first identifier among its own names. -/
theorem Depicts.toIdentifier_eq (depicts : Depicts source outlines lexemes elements met graph)
    (own : met.filter (·.1 == element.id) = element.ownNames.map (element.id, ·))
    (found : graph.node? element.id = some node) (other : node.kind ≠ .identifierToken)
    (first : element.ownNames.findSome? (fun span => graph.identifierAt? (source.carrySpan span)) =
      some token) : graph.toIdentifier element.id = .ok token := by
  have invariant := depicts.planted.invariant
  have known {span : Span} {identifier : Node}
      (found : graph.identifierAt? span = some identifier) :
      graph.node? identifier.id = some identifier ∧ identifier.kind = .identifierToken := by
    rcases Graph.identifierAt?_eq_some found with ⟨inTokens, kind, -⟩
    have inGraph := (Graph.mem_nodesOfKind.mp inTokens).1
    exact ⟨invariant.node?_eq_some_iff.mpr ⟨inGraph, rfl⟩, kind⟩
  have isFirst : graph.edges.find? (graph.linksIdentifier element.id) =
      some ⟨element.id, token.id, .associatedToken⟩ := by
    have split : graph.edges.find? (graph.linksIdentifier element.id) =
        ((graph.edgesOfKind .associatedToken).filter (·.source == element.id)).find? fun edge =>
          (graph.node? edge.target).any (·.kind == .identifierToken) := by
      rw [Graph.edgesOfKind, List.filter_filter, List.find?_filter]
      congr 1
      funext edge
      rw [Bool.eq_iff_iff]
      simp [Graph.linksIdentifier]
    -- all that an element is linked to are identifiers, so the first link is found
    have leads : ∀ edge ∈ (graph.edgesOfKind .associatedToken).filter (·.source == element.id),
        (graph.node? edge.target).any (·.kind == .identifierToken) := by
      rw [depicts.linksOfElement own]
      intro edge member
      rcases List.mem_filterMap.mp member with ⟨span, -, linked⟩
      rcases Option.map_eq_some_iff.mp linked with ⟨identifier, found, rfl⟩
      rw [(known found).1, Option.any_some, (known found).2]
      rfl
    rw [split, ← List.head?_filter, List.filter_eq_self.mpr leads, depicts.linksOfElement own,
      List.head?_filterMap]
    exact (List.map_findSome? ..).symm.trans (congrArg _ first)
  rcases List.exists_of_findSome?_eq_some first with ⟨span, -, atSpan⟩
  rw [invariant.toIdentifier_eq found other, isFirst, Option.bind_some, (known atSpan).1]

/-- A name that is a keyword is not found among the identifiers. -/
theorem Depicts.identifierAt?_eq_none
    (depicts : Depicts source outlines ((pieces source.chars).flatMap Piece.lexemes) elements met
      graph)
    (aligned : source.IsAligned) (follows : source.Follows front)
    (named : .leaf ⟨.word, text, span⟩ ∈ (pieces source.syntaxChars).flatMap Piece.lexemes)
    (reserved : isKeyword text) : graph.identifierAt? (source.carrySpan span) = none := by
  by_contra some
  rcases Option.ne_none_iff_exists'.mp some with ⟨token, found⟩
  rcases Graph.identifierAt?_eq_some found with ⟨inTokens, kind, first, last⟩
  rcases exists_of_mem_left depicts.tokens inTokens with ⟨lexeme, shown, stands⟩
  have inText := List.mem_of_mem_filter shown
  rcases Lexeme.exists_word_of_identifier (stands.kind.symm.trans kind) with ⟨other, place, rfl⟩
  have samePlace : place = span.shift source.passed :=
    calc
      place = ⟨token.startPosition, token.endPosition⟩ := stands.span.symm
      _ = source.carrySpan span := by rw [first, last]
      _ = span.shift source.passed := aligned.carrySpan_eq follows named
  have sameText := Lexeme.text_eq_of_span_eq (pairwise_precedes source.chars)
    (fun lexeme member => positive_of_mem_lexemes member) (samePlace ▸ inText)
    (aligned.lexemes _ named)
  have identifier := stands.kind.symm.trans kind
  rw [sameText, Lexeme.nodeKind, if_pos reserved] at identifier
  cases identifier

/-- Among names the first identifier of the syntax is the one that is found first. -/
theorem Depicts.exists_findSome?
    (depicts : Depicts source outlines ((pieces source.chars).flatMap Piece.lexemes) elements met
      graph)
    (aligned : source.IsAligned) (follows : source.Follows front)
    (marked : Outline.Marked ((pieces source.syntaxChars).flatMap Piece.lexemes) outlines)
    {names : List Span} (named : ∀ span ∈ names, span ∈ Outline.namesAll outlines)
    {lexeme : Lexeme}
    (first : Lexeme.firstIdentifier? ((pieces source.syntaxChars).flatMap Piece.lexemes) names =
      some lexeme) :
    ∃ token, names.findSome? (fun span => graph.identifierAt? (source.carrySpan span)) =
        some token ∧
      token.contents = lexeme.text ∧
        source.carrySpan lexeme.span = ⟨token.startPosition, token.endPosition⟩ := by
  induction names with
  | nil => cases first
  | cons span names ih =>
      rw [Lexeme.firstIdentifier?, List.findSome?_cons] at first
      rw [List.findSome?_cons]
      rcases List.forall_mem_cons.mp named with ⟨here, later⟩
      rcases marked.words span here with ⟨text, word⟩
      cases found :
          Lexeme.identifierIn? ((pieces source.syntaxChars).flatMap Piece.lexemes) span with
      | some identifier =>
          rw [found] at first
          cases first
          rcases Lexeme.of_identifierIn? found with ⟨member, kind, rfl⟩
          rcases Lexeme.exists_word_of_identifier kind with ⟨text, place, rfl⟩
          have free : ¬isKeyword text := by
            intro reserved
            rw [Lexeme.nodeKind, if_pos reserved] at kind
            cases kind
          rcases depicts.exists_identifierAt? aligned follows marked here member free with
            ⟨token, atPlace, contents⟩
          rcases Graph.identifierAt?_eq_some atPlace with ⟨-, -, first, last⟩
          refine ⟨token, ?_, contents, ?_⟩
          · rw [atPlace]
          · rw [first, last]
      | none =>
          rw [found] at first
          have reserved : isKeyword text := by
            by_contra free
            have missed := List.find?_eq_none.mp found _ word
            simp [Lexeme.nodeKind, Lexeme.span, free] at missed
          rw [depicts.identifierAt?_eq_none aligned follows word reserved]
          exact ih later first

/-- A node answers with the identifier that a lexeme of the syntax is. -/
def AnswersWith (source : SourceText) (graph : Graph) (id : NodeId) (lexeme : Lexeme) : Prop :=
  ∃ token, graph.toIdentifier id = .ok token ∧ token.contents = lexeme.text ∧
    source.carrySpan lexeme.span = ⟨token.startPosition, token.endPosition⟩

/-- How an element answers that declares a name. -/
structure AnswersAsDeclared (source : SourceText) (trees : List TokenTree) (graph : Graph)
    (element : Walk.Placed) (word : Leaf) (visible : List Span) : Prop where
  declares : ∃ run, Outline.Declares trees run word visible element.form element.span
    element.attributes element.children
  /-- The first identifier before the declared name is the answer, or else the declared name. -/
  answer : ¬isKeyword word.text → AnswersWith source graph element.id
    ((Lexeme.firstIdentifier? (TokenTree.flatten trees)
      (Outline.ownNamesAll element.attributes ++ visible)).getD (.leaf word))

/-- An element that declares a name answers with the first identifier up to that name. -/
theorem Depicts.answersWith
    (depicts : Depicts source outlines ((pieces source.chars).flatMap Piece.lexemes) elements met
      graph)
    (aligned : source.IsAligned) (follows : source.Follows front)
    (marked : Outline.Marked ((pieces source.syntaxChars).flatMap Piece.lexemes) outlines)
    (named : ∀ span ∈ element.ownNames, span ∈ Outline.namesAll outlines)
    (own : met.filter (·.1 == element.id) = element.ownNames.map (element.id, ·))
    (member : node ∈ graph.astNodes) (same : node.id = element.id) {lexeme : Lexeme}
    (inText : lexeme ∈ (pieces source.syntaxChars).flatMap Piece.lexemes)
    (identifier : lexeme.nodeKind = .identifierToken) {before : List Span}
    (begins : before ++ [lexeme.span] <+: element.ownNames) :
    AnswersWith source graph element.id
      ((Lexeme.firstIdentifier? ((pieces source.syntaxChars).flatMap Piece.lexemes) before).getD
        lexeme) := by
  have differ := Lexeme.pairwise_differ (pairwise_precedes source.syntaxChars)
    fun lexeme member => positive_of_mem_lexemes member
  rcases begins with ⟨behind, all⟩
  have first := Lexeme.firstIdentifier?_append differ inText identifier before behind
  rw [List.append_cons, all] at first
  rcases depicts.exists_findSome? aligned follows marked named first with
    ⟨token, foundFirst, stands⟩
  rcases Graph.mem_astNodes.mp member with ⟨inGraph, kind⟩
  have atId : graph.node? element.id = some node :=
    depicts.planted.invariant.node?_eq_some_iff.mpr ⟨inGraph, same⟩
  have other : node.kind ≠ .identifierToken := by
    rw [kind]
    decide
  exact ⟨token, depicts.toIdentifier_eq own atId other foundFirst, stands⟩

/-- In the graph of an accepted source that is aligned, each element that declares a name answers
with it, unless an identifier stands before it among the names of its attributes and the path of
its visibility. -/
theorem answersAsDeclared_of_run {placement : Placement} {prune : Bool} {fileName text : String}
    {extraction : Extraction} (distinct : placement.Separates text)
    (accepted : run placement prune fileName text = .ok extraction)
    (aligned : (SourceText.ofString text).IsAligned) :
    ∃ trees outlines, TokenTree.ofText (SourceText.ofString text).syntaxChars = .ok trees ∧
      Grammar.outline trees = .ok outlines ∧
      ∀ node ∈ extraction.graph.astNodes, node.contents ∈ Form.declaringLabels →
        ∃ element ∈ Walk.placedAll (.ofString text) 0 outlines (.atRoot (.ofString text) fileName),
          element.ShownBy (.ofString text) node ∧ ∃ word visible,
            AnswersAsDeclared (.ofString text) trees extraction.graph element word visible := by
  rcases depicts_of_run distinct accepted with ⟨outlines, lexemes, parsed, cut, depicts⟩
  rcases SourceText.exists_follows_ofString text with ⟨front, follows⟩
  rcases trees_of_outlineOf parsed with ⟨trees, found, outlined⟩
  have marked := Outline.marked_of_outline found outlined
  have sound := (Grammar.held_of_outline outlined).sound.1
  have flat := TokenTree.flatten_of_ofText found
  cases eq_of_lexemesOf cut
  refine ⟨trees, outlines, found, outlined, ?_⟩
  intro node member labelled
  rcases depicts.elements node member with ⟨element, placed, shown⟩
  have declares : element.form.declares :=
    element.form.declares_iff.mpr (shown.contents ▸ labelled)
  rcases Walk.isDeclaration_of_mem_placedAll 0 outlines _ sound placed declares with
    ⟨run, word, visible, declared⟩
  refine ⟨element, placed, shown, word, visible, ?_⟩
  have own := (Walk.meets_followAll (.ofString text) 0 outlines
    (.atRoot (.ofString text) fileName) (Nat.lt_succ_self 0)).inner element placed
  have named : ∀ span ∈ element.ownNames, span ∈ Outline.namesAll outlines := by
    intro span member
    have isMet : (element.id, span) ∈ (Walk.metAll (.ofString text) 0 outlines
        (.atRoot (.ofString text) fileName)).filter (·.1 == element.id) := by
      rw [own]
      exact List.mem_map_of_mem member
    exact mem_namesAll_of_mem_met (Walk.owned_metAll _ 0 outlines _ (marked.once span))
      (List.mem_of_mem_filter isMet)
  rcases TokenTree.of_mem_words (Form.mem_words_of_declared? declared.declared) with
    ⟨isWord, inRun⟩
  have inText : .leaf word ∈ TokenTree.flatten trees :=
    (declared.within.isInfix (TokenTree.allBracketed_of_ofText found)).subset inRun
  refine ⟨⟨run, declared⟩, fun free => ?_⟩
  have identifier : (Lexeme.leaf word).nodeKind = .identifierToken := by
    rcases word with ⟨form, text, place⟩
    cases isWord
    exact if_neg free
  have begins : (Outline.ownNamesAll element.attributes ++ visible) ++ [word.span] <+:
      element.ownNames := by
    rw [List.append_assoc]
    exact (List.prefix_append_right_inj _).mpr declared.names_prefix
  rw [flat] at inText marked ⊢
  exact depicts.answersWith aligned follows marked named own member shown.id inText identifier
    begins

/-- A struct with an attribute and a visibility with brackets, and a function with a parameter. -/
def restrictedItems : String := "#[a] pub(in m) struct S; pub(crate) fn f(mut x: u32) \x7b\x7d"

/-- A plain file with a struct with an attribute and a visibility with brackets, and with a
function with a parameter behind a keyword. -/
theorem answersAsDeclared_restricted :
    highPlacement.Separates restrictedItems ∧ (SourceText.ofString restrictedItems).IsAligned ∧
      ∃ extraction, run highPlacement true "a.rs" restrictedItems = .ok extraction ∧
        ∃ trees outlines,
          TokenTree.ofText (SourceText.ofString restrictedItems).syntaxChars = .ok trees ∧
          Grammar.outline trees = .ok outlines ∧
          ∀ node ∈ extraction.graph.astNodes, node.contents ∈ Form.declaringLabels →
            ∃ element ∈ Walk.placedAll (.ofString restrictedItems) 0 outlines
                (.atRoot (.ofString restrictedItems) "a.rs"),
              element.ShownBy (.ofString restrictedItems) node ∧ ∃ word visible,
                AnswersAsDeclared (.ofString restrictedItems) trees extraction.graph element word
                  visible := by
  have distinct : highPlacement.Separates restrictedItems :=
    Placement.separates_of_all (by decide +kernel)
  have plain : (SourceText.ofString restrictedItems).IsPlain :=
    ⟨by decide +kernel, by decide +kernel⟩
  have aligned : (SourceText.ofString restrictedItems).IsAligned :=
    plain.isAligned (.inl (by decide +kernel))
  have succeeds : (run highPlacement true "a.rs" restrictedItems).isOk := by decide +kernel
  rcases exists_of_isOk succeeds with ⟨extraction, accepted⟩
  exact ⟨distinct, aligned, extraction, accepted,
    answersAsDeclared_of_run distinct accepted aligned⟩

/-- Each element of a graph that declares a name answers with it if it is no keyword. -/
def AnswersDeclared (source : SourceText) (trees : List TokenTree) (elements : List Walk.Placed)
    (graph : Graph) : Prop :=
  ∀ node ∈ graph.astNodes, node.contents ∈ Form.declaringLabels →
    ∃ element ∈ elements, element.ShownBy source node ∧ ∃ run word visible,
      Outline.Declares trees run word visible element.form element.span element.attributes
          element.children ∧
        (¬isKeyword word.text → AnswersWith source graph node.id (.leaf word))

/-- A struct with an attribute. -/
def attributedStruct : String := "#[a] struct B;"

/-- A struct with an attribute answers with the name of the attribute, pruned or not. -/
theorem not_answersDeclared_attribute :
    ∃ trees outlines plain pruned,
      TokenTree.ofText (SourceText.ofString attributedStruct).syntaxChars = .ok trees ∧
      Grammar.outline trees = .ok outlines ∧
      ofSource false "a.rs" attributedStruct = .ok plain ∧
      ofSource true "a.rs" attributedStruct = .ok pruned ∧
      ∀ graph ∈ [plain.graph, pruned.graph],
        ¬AnswersDeclared (.ofString attributedStruct) trees
          (Walk.placedAll (.ofString attributedStruct) 0 outlines
            (.atRoot (.ofString attributedStruct) "a.rs")) graph := by
  have outlined : (outlineOf (.ofString attributedStruct)).toOption.any fun outlines =>
      (Walk.placedAll (.ofString attributedStruct) 0 outlines
        (.atRoot (.ofString attributedStruct) "a.rs")).map
          (Outline.ownNamesAll ·.children) == [[⟨12, 13⟩]] := by
    decide +kernel
  have answered (prune : Bool) :
      (ofSource prune "a.rs" attributedStruct).toOption.any fun extraction =>
        extraction.graph.astNodes.any fun node => node.contents == "ItemStruct" &&
          (extraction.graph.toIdentifier node.id).toOption.any (·.startPosition == 2) := by
    cases prune <;> decide +kernel
  have free : ∀ lexeme ∈ (pieces (SourceText.ofString attributedStruct).syntaxChars).flatMap
      Piece.lexemes, lexeme.span = ⟨12, 13⟩ → ¬isKeyword lexeme.text := by
    decide +kernel
  have carried : (SourceText.ofString attributedStruct).carrySpan ⟨12, 13⟩ = ⟨12, 13⟩ := by
    decide +kernel
  rcases exists_of_any outlined with ⟨outlines, parsed, listed⟩
  have names := eq_of_beq listed
  rcases trees_of_outlineOf parsed with ⟨trees, found, isOutline⟩
  have fails (prune : Bool) : ∃ extraction,
      ofSource prune "a.rs" attributedStruct = .ok extraction ∧
        ¬AnswersDeclared (.ofString attributedStruct) trees
          (Walk.placedAll (.ofString attributedStruct) 0 outlines
            (.atRoot (.ofString attributedStruct) "a.rs")) extraction.graph := by
    rcases exists_of_any (answered prune) with ⟨extraction, accepted, labels⟩
    rcases List.any_eq_true.mp labels with ⟨node, member, both⟩
    rcases Bool.and_eq_true_iff.mp both with ⟨labelled, first⟩
    refine ⟨extraction, accepted, fun answers => ?_⟩
    rcases answers node member (eq_of_beq labelled ▸ by decide) with
      ⟨element, placed, -, run, word, visible, declares, answer⟩
    have own : Outline.ownNamesAll element.children ∈ [[⟨12, 13⟩]] :=
      names ▸ List.mem_map_of_mem placed
    have begins := List.mem_singleton.mp own ▸ declares.names_prefix
    have place : word.span = ⟨12, 13⟩ :=
      List.mem_singleton.mp (begins.subset (List.mem_append_right _ (.head _)))
    have inRun := (TokenTree.of_mem_words (Form.mem_words_of_declared? declares.declared)).2
    have inText := (declares.within.isInfix (TokenTree.allBracketed_of_ofText found)).subset inRun
    rw [TokenTree.flatten_of_ofText found] at inText
    rcases answer (free _ inText place) with ⟨token, isAnswer, -, stands⟩
    rw [isAnswer] at first
    rw [show (Lexeme.leaf word).span = ⟨12, 13⟩ from place, carried] at stands
    have begins : 12 = token.startPosition := congrArg Span.first stands
    exact absurd (begins.trans (eq_of_beq first)) (by decide)
  rcases fails false with ⟨plain, accepted, plainFails⟩
  rcases fails true with ⟨pruned, prunedAccepted, prunedFails⟩
  exact ⟨trees, outlines, plain, pruned, found, isOutline, accepted, prunedAccepted,
    List.forall_mem_cons.mpr ⟨plainFails, List.forall_mem_singleton.mpr prunedFails⟩⟩

end Extraction

end ProgramGraph
