import ProgramGraph.Proofs.Extraction.Declarations
import ProgramGraph.Proofs.Grammar.Nesting.File
import ProgramGraph.Proofs.Graph.Lines

/-!
# How elements nest

An element lies in its owner, and so do its lines: what an outline holds fits into it, a walk puts
what it meets below the outline that holds it, and positions keep their order when they are carried
over to the file.  The expression of a statement without text is the exception.  It covers nothing,
and stands at the beginning of the file wherever the statement is.
-/

namespace ProgramGraph

open Source Outline

/-! ## Elements in a walk -/

namespace Walk

variable {source : SourceText} {owner : NodeId} {low high : Nat} {element outer : Placed}
  {elements more : List Placed}

/-- An element is the expression of a statement without text. -/
structure Placed.IsNothing (element : Placed) : Prop where
  form : element.form = .expression .verbatim
  span : element.span = ⟨0, 0⟩
  attributes : element.attributes = []
  children : element.children = []

/-- An element lies in the one that owns it, or between two positions if the owner of the walk
does.  The expression of a statement need not. -/
structure Placed.LiesIn (owner : NodeId) (low high : Nat) (elements : List Placed)
    (element : Placed) : Prop where
  last_le : element.span.last ≤ high
  inside : element.owner = owner ∧ element.span.Between low high ∨
    ∃ outer ∈ elements, outer.id = element.owner ∧
      (element.span.Between outer.span.first outer.span.last ∨
        outer.form = .statement .expression ∧ element.IsNothing)

namespace Placed.LiesIn

/-- There may be more elements around. -/
theorem mono (lies : element.LiesIn owner low high elements) (subset : elements ⊆ more) :
    element.LiesIn owner low high more := by
  refine ⟨lies.last_le, lies.inside.imp_right ?_⟩
  rintro ⟨outer, member, same, inside⟩
  exact ⟨outer, subset member, same, inside⟩

/-- What lies below an element lies in it. -/
theorem below (lies : element.LiesIn outer.id outer.span.first outer.span.last elements)
    (subset : elements ⊆ more) (last : outer.span.last ≤ high) :
    element.LiesIn owner low high (outer :: more) := by
  refine ⟨lies.last_le.trans last, .inr ?_⟩
  rcases lies.inside with ⟨same, between⟩ | ⟨inner, member, same, inside⟩
  · exact ⟨outer, .head _, same.symm, .inl between⟩
  · exact ⟨inner, .tail _ (subset member), same, inside⟩

end Placed.LiesIn

mutual

/-- What a walk meets of an outline that fits lies where it should. -/
theorem liesIn_of_mem_placed (owner : NodeId) :
    (outline : Outline) → (walk : Walk) → {low high : Nat} → outline.Fits low high →
      element ∈ placed source owner outline walk →
        element.LiesIn owner low high (placed source owner outline walk)
  | .element form span attributes children, walk, low, high, ⟨between, attributesFit, childrenFit⟩,
      member => by
      rcases List.mem_cons.mp member with rfl | below
      · exact ⟨between.le_high, .inl ⟨rfl, between⟩⟩
      rcases List.mem_append.mp below with inAttributes | inChildren
      · have lies :=
          liesIn_of_mem_placedAll walk.graph.nextId attributes _ attributesFit inAttributes
        exact lies.below (List.subset_append_left _ _) between.le_high
      rcases childrenFit with fit | ⟨rfl, rfl⟩
      · have lies := liesIn_of_mem_placedAll walk.graph.nextId children _ fit inChildren
        exact lies.below (List.subset_append_right _ _) between.le_high
      · cases List.mem_singleton.mp inChildren
        exact ⟨Nat.zero_le _, .inr ⟨_, .head _, rfl, .inr ⟨rfl, rfl, rfl, rfl, rfl⟩⟩⟩
  | .ascription attributes pattern type, walk, low, high, ⟨attributesFit, patternFits, typeFits⟩,
      member => by
      rcases List.mem_append.mp member with inAttributes | inBoth
      · exact (liesIn_of_mem_placedAll owner attributes _ attributesFit inAttributes).mono
          (List.subset_append_left _ _)
      rcases List.mem_append.mp inBoth with inPattern | inType
      · exact ((liesIn_of_mem_placed owner pattern _ patternFits inPattern).mono
          (List.subset_append_left _ _)).mono (List.subset_append_right _ _)
      · exact ((liesIn_of_mem_placed owner type _ typeFits inType).mono
          (List.subset_append_right _ _)).mono (List.subset_append_right _ _)

theorem liesIn_of_mem_placedAll (owner : NodeId) :
    (outlines : List Outline) → (walk : Walk) → {low high : Nat} → AllFit outlines low high →
      element ∈ placedAll source owner outlines walk →
        element.LiesIn owner low high (placedAll source owner outlines walk)
  | outline :: outlines, walk, low, high, ⟨first, others⟩, member => by
      rcases List.mem_append.mp member with here | later
      · exact (liesIn_of_mem_placed owner outline walk first here).mono
          (List.subset_append_left _ _)
      · exact (liesIn_of_mem_placedAll owner outlines _ others later).mono
          (List.subset_append_right _ _)

end

mutual

/-- The ids of what a walk meets ascend. -/
theorem pairwise_placed (owner : NodeId) :
    (outline : Outline) → (walk : Walk) → owner < walk.graph.nextId →
      (placed source owner outline walk).Pairwise (·.id < ·.id)
  | .element form span attributes children, walk, below => by
      have entered : walk.graph.nextId < (walk.enter source owner form span).graph.nextId :=
        Nat.lt_succ_self _
      have described := meets_followAll source walk.graph.nextId attributes _ entered
      have inside := Nat.lt_of_lt_of_le entered described.le
      have filled := meets_followAll source walk.graph.nextId children _ inside
      refine .cons ?_ (List.pairwise_append.mpr ⟨pairwise_placedAll _ attributes _ entered,
        pairwise_placedAll _ children _ inside, ?_⟩)
      · intro inner member
        rcases List.mem_append.mp member with inAttributes | inChildren
        · exact Nat.lt_of_lt_of_le entered (described.ids inner inAttributes).1
        · exact Nat.lt_of_lt_of_le inside (filled.ids inner inChildren).1
      · intro first inAttributes second inChildren
        exact Nat.lt_of_lt_of_le (described.ids first inAttributes).2
          (filled.ids second inChildren).1
  | .name _, _, _ => .nil
  | .document _ _, _, _ => .nil
  | .ascription attributes pattern type, walk, below => by
      have described := meets_followAll source owner attributes walk below
      have afterAttributes := Nat.lt_of_lt_of_le below described.le
      have patternMet := meets_follow source owner pattern _ afterAttributes
      have afterPattern := Nat.lt_of_lt_of_le afterAttributes patternMet.le
      have typeMet := meets_follow source owner type _ afterPattern
      refine List.pairwise_append.mpr ⟨pairwise_placedAll owner attributes walk below,
        List.pairwise_append.mpr ⟨pairwise_placed owner pattern _ afterAttributes,
          pairwise_placed owner type _ afterPattern, ?_⟩, ?_⟩
      · intro first inPattern second inType
        exact Nat.lt_of_lt_of_le (patternMet.ids first inPattern).2 (typeMet.ids second inType).1
      · intro first inAttributes second inBoth
        have ends := (described.ids first inAttributes).2
        rcases List.mem_append.mp inBoth with inPattern | inType
        · exact Nat.lt_of_lt_of_le ends (patternMet.ids second inPattern).1
        · exact Nat.lt_of_lt_of_le ends (patternMet.le.trans (typeMet.ids second inType).1)

theorem pairwise_placedAll (owner : NodeId) :
    (outlines : List Outline) → (walk : Walk) → owner < walk.graph.nextId →
      (placedAll source owner outlines walk).Pairwise (·.id < ·.id)
  | [], _, _ => .nil
  | outline :: outlines, walk, below => by
      have first := meets_follow source owner outline walk below
      have after := Nat.lt_of_lt_of_le below first.le
      have rest := meets_followAll source owner outlines _ after
      refine List.pairwise_append.mpr ⟨pairwise_placed owner outline walk below,
        pairwise_placedAll owner outlines _ after, ?_⟩
      intro element here other later
      exact Nat.lt_of_lt_of_le (first.ids element here).2 (rest.ids other later).1

end

/-- No two elements of a file have the same id. -/
theorem nodup_placedAll (source : SourceText) (fileName : String) (outlines : List Outline) :
    ((placedAll source 0 outlines (.atRoot source fileName)).map (·.id)).Nodup :=
  List.pairwise_map.mpr ((pairwise_placedAll 0 outlines _ (Nat.lt_succ_self 0)).imp Nat.ne_of_lt)

/-- The id of an element of a file comes behind that of the root. -/
theorem id_pos {fileName : String} {outlines : List Outline}
    (member : element ∈ placedAll source 0 outlines (.atRoot source fileName)) : 0 < element.id :=
  ((meets_followAll source 0 outlines _ (Nat.lt_succ_self 0)).ids element member).1

/-! ### Types of patterns -/

variable {walk between after : Walk} {outline : Outline} {id : NodeId}

/-- A walk gives types to elements with text. -/
def TypesText (walk after : Walk) (elements : List Placed) : Prop :=
  ∀ edge ∈ after.graph.edgesOfKind .hasType, edge ∈ walk.graph.edgesOfKind .hasType ∨
    ∃ element ∈ elements, element.id = edge.source ∧ element.span.first < element.span.last

namespace TypesText

theorem of_edges (same : after.graph.edgesOfKind .hasType = walk.graph.edgesOfKind .hasType) :
    TypesText walk after elements :=
  fun _ member => .inl (same ▸ member)

theorem mono (types : TypesText walk after elements) (subset : elements ⊆ more) :
    TypesText walk after more := by
  intro edge member
  apply (types edge member).imp_right
  rintro ⟨element, inElements, same, positive⟩
  exact ⟨element, subset inElements, same, positive⟩

theorem trans (first : TypesText walk between elements) (second : TypesText between after more) :
    TypesText walk after (elements ++ more) := by
  intro edge member
  rcases second edge member with earlier | ⟨element, inMore, same, positive⟩
  · exact first.mono (List.subset_append_left _ _) edge earlier
  · exact .inr ⟨element, List.mem_append_right _ inMore, same, positive⟩

/-- An element with text is given a type. -/
theorem addType (types : TypesText walk between elements) (span : Span)
    (element : ∃ element ∈ elements, element.id = id ∧ element.span.first < element.span.last) :
    TypesText walk (between.addType source id span) elements := by
  intro edge member
  have edges : ∃ target, (between.addType source id span).graph.edges =
      between.graph.edges ++ [⟨id, target, .hasType⟩] := by
    unfold Walk.addType addTypeNode
    dsimp only
    split <;> exact ⟨_, Graph.edges_pushEdge _ _⟩
  rcases edges with ⟨target, edges⟩
  rw [Graph.edgesOfKind, edges, List.filter_append] at member
  rcases List.mem_append.mp member with earlier | last
  · exact types edge earlier
  · cases List.mem_singleton.mp (List.mem_of_mem_filter last)
    exact .inr element

end TypesText

/-- What a walk answers with is an element with text. -/
theorem exists_of_answered {low high : Nat} (fits : outline.Fits low high)
    (answered : (follow source owner outline walk).1 = some id) :
    ∃ element ∈ placed source owner outline walk, element.id = id ∧
      element.span.first < element.span.last := by
  cases outline with
  | element form span attributes children =>
      cases answered
      exact ⟨_, .head _, rfl, fits.1.lt⟩
  | name span => cases answered
  | document span text => cases answered
  | ascription attributes pattern type =>
      rw [follow] at answered
      dsimp only at answered
      split at answered <;> cases answered

mutual

/-- A walk over an outline that fits gives types to elements with text. -/
theorem typesText_follow (source : SourceText) (owner : NodeId) :
    (outline : Outline) → (walk : Walk) → {low high : Nat} → outline.Fits low high →
      TypesText walk (follow source owner outline walk).2 (placed source owner outline walk)
  | .element form span attributes children, walk, _, _, ⟨_, attributesFit, childrenFit⟩ => by
      have entered : TypesText walk (walk.enter source owner form span) [] :=
        .of_edges (Graph.edgesOfKind_pushEdge_of_ne nofun)
      have described := entered.trans
        (typesText_followAll source walk.graph.nextId attributes _ attributesFit)
      have filled : TypesText
          (followAll source walk.graph.nextId attributes (walk.enter source owner form span))
          (followAll source walk.graph.nextId children
            (followAll source walk.graph.nextId attributes (walk.enter source owner form span)))
          (placedAll source walk.graph.nextId children
            (followAll source walk.graph.nextId attributes
              (walk.enter source owner form span))) := by
        rcases childrenFit with fit | ⟨-, rfl⟩
        · exact typesText_followAll source walk.graph.nextId children _ fit
        · exact .of_edges (Graph.edgesOfKind_pushEdge_of_ne nofun)
      exact (described.trans filled).mono (List.subset_cons_self _ _)
  | .name span, walk, _, _, _ => .of_edges rfl
  | .document span text, walk, _, _, _ => .of_edges (Graph.edgesOfKind_pushEdge_of_ne nofun)
  | .ascription attributes pattern type, walk, _, _, ⟨attributesFit, patternFits, typeFits⟩ => by
      have described := typesText_followAll source owner attributes walk attributesFit
      have patternMet := typesText_follow source owner pattern
        (followAll source owner attributes walk) patternFits
      have typeMet := typesText_follow source owner type
        (follow source owner pattern (followAll source owner attributes walk)).2 typeFits
      have all := described.trans (patternMet.trans typeMet)
      rw [follow]
      dsimp only
      split
      · next id answered =>
        apply all.addType
        rcases exists_of_answered patternFits answered with ⟨element, member, known⟩
        exact ⟨element, List.mem_append_right _ (List.mem_append_left _ member), known⟩
      · exact all

theorem typesText_followAll (source : SourceText) (owner : NodeId) :
    (outlines : List Outline) → (walk : Walk) → {low high : Nat} → AllFit outlines low high →
      TypesText walk (followAll source owner outlines walk) (placedAll source owner outlines walk)
  | [], _, _, _, _ => .of_edges rfl
  | outline :: outlines, walk, _, _, ⟨first, others⟩ =>
      (typesText_follow source owner outline walk first).trans
        (typesText_followAll source owner outlines _ others)

end

end Walk

namespace Extraction

variable {extraction after plain : Extraction} {lines : LineMap} {source : SourceText}
  {placement : Placement} {fileName text : String} {outlines : List Outline}
  {lexemes : List Lexeme}

theorem Step.lined (step : Step extraction after) (lined : extraction.graph.Lined lines) :
    after.graph.Lined lines := by
  cases step with
  | element graph types owner contents first last => exact lined.pushNode _ contents first last
  | knownType => exact lined
  | newType graph types pattern name first last => exact lined.pushNode _ name first last
  | node graph types kind contents first last => exact lined.pushNode kind contents first last
  | edge => exact lined

theorem lined_of_assemble (distinct : (placement.keys outlines).Nodup)
    (assembled : assemble source placement fileName outlines lexemes = .ok plain) :
    plain.graph.Lined source.lines := by
  have root : (Walk.atRoot source fileName).extraction.graph.Lined source.lines := by
    have empty : (Graph.empty fileName source.lines).Lined source.lines := ⟨rfl, nofun⟩
    exact empty.pushNode .astRoot "" 0 source.chars.length
  exact (steps_of_assemble distinct assembled).keeps (P := (·.graph.Lined source.lines))
    Step.lined root

/-- The edges of most kinds are those of the walk over the outline. -/
theorem edgesOfKind_of_assemble {kind : EdgeKind} (distinct : (placement.keys outlines).Nodup)
    (assembled : assemble source placement fileName outlines lexemes = .ok plain)
    (other : kind ∉ [EdgeKind.nextToken, .lastLexicalUse]) (noLink : kind ≠ .associatedToken) :
    plain.graph.edgesOfKind kind =
      (Walk.followFile source fileName outlines).graph.edgesOfKind kind := by
  have edges : plain.unkeyed.graph.edgesOfKind kind =
      (Walk.followFile source fileName outlines).graph.edgesOfKind kind := by
    rw [unkeyed_of_assemble distinct assembled, edgesOfKind_finish _ lexemes other, if_neg noLink]
    exact List.append_nil _
  exact edges

end Extraction

/-! ## Positions in the file -/

namespace SourceText.Follows

variable {source : SourceText} {front : List Char}

theorem carry_zero (follows : source.Follows front) : source.carry 0 = 0 := by
  have first : source.syntaxLines.lineNumber 0 = 1 := by
    rw [follows.syntaxLines]
    apply congrArg (· + 1)
    apply List.countP_eq_zero.mpr
    intro start member reached
    have behind := (LineMap.pairwise_startsFrom 0 source.syntaxChars).2 start member
    simp only [decide_eq_true_eq] at reached
    omega
  rw [follows.carry_eq, if_pos first]

/-- What lies in the syntax lies in the file. -/
theorem carry_le (follows : source.Follows front) {position : Nat}
    (inside : position ≤ source.syntaxChars.length) :
    source.carry position ≤ source.chars.length := by
  rw [follows.carry_eq, follows.chars, List.length_append]
  split <;> omega

end SourceText.Follows

/-! ## Elements in their owners -/

namespace Node

/-- A node lies in another one, and so do its lines. -/
structure LiesIn (node owner : Node) : Prop where
  first : owner.startPosition ≤ node.startPosition
  last : node.endPosition ≤ owner.endPosition
  firstLine : owner.startLine ≤ node.startLine
  lastLine : node.endLine ≤ owner.endLine

/-- A node is the expression of a statement without text. -/
structure IsNothingOf (node statement : Node) : Prop where
  contents : node.contents = "Expr"
  statement : statement.contents = "StmtExpr"
  first : node.startPosition = 0
  last : node.endPosition = 0

end Node

namespace Graph

variable {graph part : Graph} {length : Nat}

/-- The stretches of the elements nest, in a file with so many characters. -/
structure Nests (graph : Graph) (length : Nat) : Prop where
  ordered : ∀ element ∈ graph.astNodes,
    element.startPosition ≤ element.endPosition ∧ element.endPosition ≤ length
  nested : ∀ element ∈ graph.astNodes, ∀ owner ∈ graph.nodes,
    graph.Owns owner.id element.id → element.LiesIn owner

/-- The elements of a graph cover text of the file and lie in their owners, but for the expressions
of statements without text. -/
structure NestsTexts (graph : Graph) (length : Nat) : Prop where
  owned : ∀ element ∈ graph.astNodes, ∃ owner ∈ graph.nodes, graph.Owns owner.id element.id
  nested : ∀ element ∈ graph.astNodes, ∀ owner ∈ graph.nodes, graph.Owns owner.id element.id →
    element.startPosition < element.endPosition ∧ element.endPosition ≤ length ∧
        element.LiesIn owner ∨
      element.IsNothingOf owner
  /-- Elements are found where they have text; those without are all found at the front. -/
  found : ∀ first last, ∀ element ∈ graph.nodesBySpan first last, element.kind = .astElement →
    first < last ∧ last ≤ length ∨ first = 0 ∧ last = 0 ∧ element.contents = "Expr"

/-- The nodes and edges of a part nest if those of the whole graph do. -/
theorem NestsTexts.restrict (nests : graph.NestsTexts length) (planted : part.Planted)
    (nodes : part.nodes ⊆ graph.nodes) (edges : part.edges ⊆ graph.edges) :
    part.NestsTexts length where
  owned := by
    intro element member
    rcases planted.astTree.owner element member with ⟨owner, -, only, above⟩
    rcases above with ⟨node, inPart, rfl, -⟩
    exact ⟨node, inPart, (mem_edgesInto.mp (only ▸ List.mem_singleton_self _)).1⟩
  nested := by
    intro element member owner inPart owns
    rcases mem_astNodes.mp member with ⟨elementIn, kind⟩
    exact nests.nested element (mem_astNodes.mpr ⟨nodes elementIn, kind⟩) owner (nodes inPart)
      (edges owns)
  found := by
    intro first last element member kind
    rcases List.mem_filter.mp member with ⟨inPart, spans⟩
    exact nests.found first last element (List.mem_filter.mpr ⟨nodes inPart, spans⟩) kind

end Graph

namespace Extraction

variable {source : SourceText} {front : List Char} {outlines : List Outline}
  {lexemes : List Lexeme} {elements : List Walk.Placed} {met : List (NodeId × Span)}
  {placement : Placement} {fileName text : String} {plain extraction : Extraction} {graph : Graph}
  {inner outer : Walk.Placed} {element owner : Node}

/-- A node lies in another one with its lines if it does with its positions. -/
theorem liesIn_of_positions {lines : LineMap} (lined : graph.Lined lines)
    (member : element ∈ graph.nodes) (ownerIn : owner ∈ graph.nodes)
    (first : owner.startPosition ≤ element.startPosition)
    (last : element.endPosition ≤ owner.endPosition) : element.LiesIn owner := by
  refine ⟨first, last, ?_, ?_⟩
  · rw [(lined.2 owner ownerIn).1, (lined.2 element member).1]
    exact lines.lineNumber_mono first
  · rw [(lined.2 owner ownerIn).2, (lined.2 element member).2]
    exact lines.lineNumber_mono last

/-- The graph of a source that is not pruned: what it shows of the file, and that its tree, its
types and its lines are those of the walk over the outline. -/
structure Unpruned (source : SourceText) (fileName : String) (outlines : List Outline)
    (lexemes : List Lexeme) (graph : Graph) : Prop where
  depicts : Depicts source outlines lexemes
    (Walk.placedAll source 0 outlines (.atRoot source fileName))
    (Walk.metAll source 0 outlines (.atRoot source fileName)) graph
  fit : AllFit outlines 0 source.syntaxChars.length
  root : graph.nodesOfKind [.astRoot] = [Walk.rootOf source fileName]
  tree : graph.edgesOfKind .astChild =
    (Walk.placedAll source 0 outlines (.atRoot source fileName)).map Walk.Placed.edge
  types : ∀ edge ∈ graph.edgesOfKind .hasType,
    ∃ element ∈ Walk.placedAll source 0 outlines (.atRoot source fileName),
      element.id = edge.source ∧ element.span.first < element.span.last
  lined : graph.Lined source.lines

theorem unpruned_of_run (distinct : placement.Separates text)
    (accepted : run placement false fileName text = .ok plain) :
    ∃ outlines lexemes, Unpruned (.ofString text) fileName outlines lexemes plain.graph := by
  have root := roots_of_run accepted
  rcases assemble_of_run accepted with ⟨outlines, lexemes, _, parsed, cut, assembled, rfl⟩
  rcases depicts_of_run distinct accepted with ⟨same, others, parsedSame, -, depicts⟩
  cases Except.ok.inj (parsed.symm.trans parsedSame)
  rcases trees_of_outlineOf parsed with ⟨trees, found, outlined⟩
  have fit := Grammar.allFit_of_outline found outlined
  have records := Walk.records_followAll (.ofString text) 0 outlines
    (.atRoot (.ofString text) fileName)
  have keys := distinct outlines parsed
  refine ⟨outlines, others, depicts, fit, root, ?_, ?_, lined_of_assemble keys assembled⟩
  · have edges : plain.graph.edgesOfKind .astChild =
        (Walk.followFile (.ofString text) fileName outlines).graph.edgesOfKind .astChild :=
      edgesOfKind_of_assemble keys assembled (by decide) (by decide)
    exact edges.trans records.tree
  · intro edge member
    rw [edgesOfKind_of_assemble keys assembled (by decide) (by decide)] at member
    have types := Walk.typesText_followAll (.ofString text) 0 outlines
      (.atRoot (.ofString text) fileName) fit
    exact (types edge member).resolve_left List.not_mem_nil

namespace Unpruned

/-- An edge of the tree comes from the owner of the element that it leads to. -/
theorem owner_eq (unpruned : Unpruned source fileName outlines lexemes graph)
    (member : element ∈ graph.astNodes)
    (placed : inner ∈ Walk.placedAll source 0 outlines (.atRoot source fileName))
    (shown : inner.ShownBy source element) (owns : graph.Owns owner.id element.id) :
    inner.owner = owner.id := by
  rcases unpruned.depicts.planted.owners element member with ⟨only, -, edges⟩
  have isOnly {id : NodeId} (owns : graph.Owns id element.id) : id = only := by
    have listed := Graph.mem_edgesInto.mpr ⟨owns, rfl, rfl⟩
    rw [edges] at listed
    exact congrArg Edge.source (List.mem_singleton.mp listed)
  have edge : inner.edge ∈ graph.edgesOfKind .astChild := by
    rw [unpruned.tree]
    exact List.mem_map_of_mem placed
  exact (isOnly (shown.id ▸ List.mem_of_mem_filter edge)).trans (isOnly owns).symm

/-- The node that owns an element of the graph stands for the element of the walk with its id. -/
theorem shownBy_of_owns (unpruned : Unpruned source fileName outlines lexemes graph)
    (ownerIn : owner ∈ graph.nodes) (owns : graph.Owns owner.id element.id)
    (placed : outer ∈ Walk.placedAll source 0 outlines (.atRoot source fileName))
    (same : outer.id = owner.id) : outer.ShownBy source owner := by
  have planted := unpruned.depicts.planted
  have isElement : owner ∈ graph.astNodes := by
    obtain ⟨node, inGraph, sameId, kind⟩ := (planted.fits _ owns).1
    cases List.inj_on_of_nodup_map planted.invariant.nodup_ids inGraph ownerIn sameId
    rcases List.mem_cons.mp kind with isRoot | isElement
    · have listed : owner ∈ graph.nodesOfKind [.astRoot] :=
        Graph.mem_nodesOfKind.mpr ⟨ownerIn, List.mem_singleton.mpr isRoot⟩
      rw [unpruned.root, List.mem_singleton] at listed
      rw [listed] at same
      exact absurd same (Nat.ne_of_gt (Walk.id_pos placed))
    · exact Graph.mem_astNodes.mpr ⟨ownerIn, List.mem_singleton.mp isElement⟩
  rcases unpruned.depicts.elements owner isElement with ⟨twin, twinIn, shown⟩
  have twins := List.inj_on_of_nodup_map (Walk.nodup_placedAll ..) twinIn placed
    (shown.id.symm.trans same.symm)
  exact twins ▸ shown

/-- The expression of a statement without text informs of nothing. -/
theorem not_informs_of_isNothing (unpruned : Unpruned source fileName outlines lexemes graph)
    (placed : inner ∈ Walk.placedAll source 0 outlines (.atRoot source fileName))
    (isNothing : inner.IsNothing) : ¬graph.Informs inner.id := by
  have isOnly {twin : Walk.Placed}
      (member : twin ∈ Walk.placedAll source 0 outlines (.atRoot source fileName))
      (same : twin.id = inner.id) : twin = inner :=
    List.inj_on_of_nodup_map (Walk.nodup_placedAll ..) member placed same
  have ownsNone : ∀ id, ¬graph.Owns inner.id id := by
    intro id owns
    have edge : ⟨inner.id, id, .astChild⟩ ∈ graph.edgesOfKind .astChild :=
      List.mem_filter.mpr ⟨owns, rfl⟩
    rw [unpruned.tree] at edge
    rcases List.mem_map.mp edge with ⟨child, childIn, same⟩
    have isOwner : child.owner = inner.id := congrArg Edge.source same
    rcases (Walk.liesIn_of_mem_placedAll 0 outlines _ unpruned.fit childIn).inside with
      ⟨top, -⟩ | ⟨outer, outerIn, outerId, within⟩
    · exact Nat.ne_of_gt (Walk.id_pos placed) (isOwner.symm.trans top)
    · cases isOnly outerIn (outerId.trans isOwner)
      rcases within with between | ⟨isStatement, -⟩
      · have lt := Nat.lt_of_le_of_lt between.low_le (Nat.lt_of_lt_of_le between.lt between.le_high)
        rw [isNothing.span] at lt
        exact Nat.lt_irrefl 0 lt
      · rw [isNothing.form] at isStatement
        cases isStatement
  rintro ⟨other, path, edge, live, source, kind⟩
  rcases path.cases_head with rfl | ⟨next, owns, -⟩
  · rcases List.mem_cons.mp kind with isLink | isType
    · have link : edge ∈ graph.edgesOfKind .associatedToken :=
        List.mem_filter.mpr ⟨live, beq_iff_eq.mpr isLink⟩
      rw [unpruned.depicts.links] at link
      rcases List.mem_filterMap.mp link with ⟨name, isMet, linked⟩
      rcases Option.map_eq_some_iff.mp linked with ⟨token, -, rfl⟩
      have own := (Walk.meets_followAll _ 0 outlines (.atRoot _ fileName)
        (Nat.lt_succ_self 0)).inner inner placed
      rw [Walk.Placed.ownNames, isNothing.attributes, isNothing.children] at own
      exact List.filter_eq_nil_iff.mp own name isMet (beq_iff_eq.mpr source)
    · have typed : edge ∈ graph.edgesOfKind .hasType :=
        List.mem_filter.mpr ⟨live, beq_iff_eq.mpr (List.mem_singleton.mp isType)⟩
      rcases unpruned.types edge typed with ⟨twin, twinIn, same, positive⟩
      cases isOnly twinIn (same.trans source)
      rw [isNothing.span] at positive
      exact Nat.lt_irrefl 0 positive
  · exact ownsNone next owns

/-- Each element lies in its owner, unless it is the expression of a statement without text, which
informs of nothing. -/
theorem nested (unpruned : Unpruned source fileName outlines lexemes graph)
    (follows : source.Follows front) (member : element ∈ graph.astNodes)
    (ownerIn : owner ∈ graph.nodes) (owns : graph.Owns owner.id element.id) :
    element.startPosition < element.endPosition ∧ element.endPosition ≤ source.chars.length ∧
        element.LiesIn owner ∨
      element.IsNothingOf owner ∧ ¬graph.Informs element.id := by
  have inGraph := (Graph.mem_astNodes.mp member).1
  have carried := follows.strictMono_carry
  rcases unpruned.depicts.elements element member with ⟨inner, placed, shown⟩
  have isOwner := unpruned.owner_eq member placed shown owns
  have lies := Walk.liesIn_of_mem_placedAll 0 outlines _ unpruned.fit placed
  have inside : element.endPosition ≤ source.chars.length := by
    rw [shown.last]
    exact follows.carry_le lies.last_le
  rcases lies.inside with ⟨top, between⟩ | ⟨outer, outerIn, outerId, within⟩
  · left
    have isRoot : owner = Walk.rootOf source fileName := by
      have rootIn : Walk.rootOf source fileName ∈ graph.nodes :=
        (Graph.mem_nodesOfKind.mp (unpruned.root ▸ List.mem_singleton_self _)).1
      exact List.inj_on_of_nodup_map unpruned.depicts.planted.invariant.nodup_ids ownerIn rootIn
        (isOwner.symm.trans top)
    refine ⟨?_, inside, liesIn_of_positions unpruned.lined inGraph ownerIn ?_ ?_⟩
    · rw [shown.first, shown.last]
      exact carried between.lt
    · rw [isRoot]
      exact Nat.zero_le _
    · rw [isRoot]
      exact inside
  · have outerShown := unpruned.shownBy_of_owns ownerIn owns outerIn (outerId.trans isOwner)
    rcases within with between | ⟨isStatement, isNothing⟩
    · refine .inl ⟨?_, inside, liesIn_of_positions unpruned.lined inGraph ownerIn ?_ ?_⟩
      · rw [shown.first, shown.last]
        exact carried between.lt
      · rw [shown.first, outerShown.first]
        exact carried.monotone between.low_le
      · rw [shown.last, outerShown.last]
        exact carried.monotone between.le_high
    · refine .inr ⟨⟨?_, ?_, ?_, ?_⟩, shown.id ▸ unpruned.not_informs_of_isNothing placed isNothing⟩
      · rw [shown.contents, isNothing.form]
        rfl
      · rw [outerShown.contents, isStatement]
        rfl
      · rw [shown.first, isNothing.span]
        exact follows.carry_zero
      · rw [shown.last, isNothing.span]
        exact follows.carry_zero

theorem owned (unpruned : Unpruned source fileName outlines lexemes graph)
    (member : element ∈ graph.astNodes) :
    ∃ owner ∈ graph.nodes, graph.Owns owner.id element.id := by
  rcases unpruned.depicts.planted.astTree.owner element member with
    ⟨_, -, only, owner, inGraph, rfl, -⟩
  exact ⟨owner, inGraph, (Graph.mem_edgesInto.mp (only ▸ List.mem_singleton_self _)).1⟩

theorem nestsTexts (unpruned : Unpruned source fileName outlines lexemes graph)
    (follows : source.Follows front) : graph.NestsTexts source.chars.length where
  owned _ member := unpruned.owned member
  nested _ member _ ownerIn owns :=
    (unpruned.nested follows member ownerIn owns).imp_right And.left
  found := by
    intro first last element member kind
    rcases List.mem_filter.mp member with ⟨inGraph, spans⟩
    rcases Bool.and_eq_true_iff.mp spans with ⟨begins, ends⟩
    rw [← eq_of_beq begins, ← eq_of_beq ends]
    have isElement := Graph.mem_astNodes.mpr ⟨inGraph, kind⟩
    rcases unpruned.owned isElement with ⟨owner, ownerIn, owns⟩
    rcases unpruned.nested follows isElement ownerIn owns with
      ⟨positive, inside, -⟩ | ⟨nothing, -⟩
    · exact .inl ⟨positive, inside⟩
    · exact .inr ⟨nothing.first, nothing.last, nothing.contents⟩

/-- Pruning leaves no expression of a statement without text. -/
theorem nests_prune (unpruned : Unpruned source fileName outlines lexemes graph)
    (follows : source.Follows front) : graph.prune.2.Nests source.chars.length := by
  have planted := unpruned.depicts.planted
  have part := planted.informingPart
  have nested : ∀ element ∈ graph.prune.2.astNodes, ∀ owner ∈ graph.nodes,
      graph.Owns owner.id element.id → element.startPosition < element.endPosition ∧
        element.endPosition ≤ source.chars.length ∧ element.LiesIn owner := by
    intro element member owner ownerIn owns
    rcases Graph.mem_astNodes.mp member with ⟨inPart, kind⟩
    have inGraph := Graph.mem_astNodes.mpr ⟨part.sublist.subset inPart, kind⟩
    have informs := (part.elements element inGraph).mp member
    exact (unpruned.nested follows inGraph ownerIn owns).resolve_right fun silent =>
      silent.2 informs
  constructor
  · intro element member
    rcases Graph.mem_astNodes.mp member with ⟨inPart, kind⟩
    rcases unpruned.owned (Graph.mem_astNodes.mpr ⟨part.sublist.subset inPart, kind⟩) with
      ⟨owner, ownerIn, owns⟩
    rcases nested element member owner ownerIn owns with ⟨positive, inside, -⟩
    exact ⟨Nat.le_of_lt positive, inside⟩
  · intro element member owner ownerIn owns
    rw [Graph.Owns, part.edges] at owns
    exact (nested element member owner (part.sublist.subset ownerIn)
      (List.mem_of_mem_filter owns)).2.2

end Unpruned

/-- In the graph of an accepted source each element covers text of the file and lies in its owner,
unless it is the expression of a statement without text.  Pruning removes these expressions, so that
all elements nest that it leaves. -/
theorem nests_of_run {prune : Bool} (distinct : placement.Separates text)
    (accepted : run placement prune fileName text = .ok extraction) :
    extraction.graph.NestsTexts (SourceText.ofString text).chars.length ∧
      (prune → extraction.graph.Nests (SourceText.ofString text).chars.length) := by
  rcases assemble_of_run accepted with ⟨outlines, lexemes, plain, parsed, cut, assembled, rfl⟩
  rcases unpruned_of_run distinct (run_of_assemble false parsed cut assembled) with
    ⟨outlines, lexemes, unpruned⟩
  rcases SourceText.exists_follows_ofString text with ⟨front, follows⟩
  have texts := unpruned.nestsTexts follows
  cases prune with
  | false => exact ⟨texts, nofun⟩
  | true =>
      have planted := unpruned.depicts.planted
      refine ⟨texts.restrict planted.prune planted.informingPart.sublist.subset ?_,
        fun _ => unpruned.nests_prune follows⟩
      exact planted.informingPart.edges ▸ fun _ => List.mem_of_mem_filter

/-- A function with a statement without text and a pattern with a type, on two lines. -/
def letOnNextLine : String := "fn f() \x7b ;\nlet x: u8 = 1; \x7d"

/-- The texts of a function on two lines are nested. -/
theorem nests_two_lines :
    highPlacement.Separates letOnNextLine ∧
      ∃ extraction, run highPlacement false "a.rs" letOnNextLine = .ok extraction ∧
        extraction.graph.NestsTexts (SourceText.ofString letOnNextLine).chars.length := by
  have distinct : highPlacement.Separates letOnNextLine :=
    Placement.separates_of_all (by decide +kernel)
  have succeeds : (run highPlacement false "a.rs" letOnNextLine).isOk := by decide +kernel
  rcases exists_of_isOk succeeds with ⟨extraction, accepted⟩
  exact ⟨distinct, extraction, accepted, (nests_of_run distinct accepted).1⟩

/-- A function with a statement without text. -/
def emptyStatement : String := "fn f() \x7b ; \x7d"

/-- The expression of a statement without text does not lie in its statement. -/
theorem not_nests_emptyStatement :
    ∃ extraction, ofSource false "a.rs" emptyStatement = .ok extraction ∧
      ¬extraction.graph.Nests (SourceText.ofString emptyStatement).chars.length := by
  have before : (ofSource false "a.rs" emptyStatement).toOption.any fun extraction =>
      extraction.graph.astNodes.any fun element => extraction.graph.nodes.any fun owner =>
        extraction.graph.edges.contains ⟨owner.id, element.id, .astChild⟩ &&
          element.startPosition < owner.startPosition := by
    decide +kernel
  rcases exists_of_any before with ⟨extraction, accepted, below⟩
  refine ⟨extraction, accepted, fun nests => ?_⟩
  rcases List.any_eq_true.mp below with ⟨element, member, above⟩
  rcases List.any_eq_true.mp above with ⟨owner, ownerIn, both⟩
  rcases Bool.and_eq_true_iff.mp both with ⟨owns, less⟩
  have lies := nests.nested element member owner ownerIn (List.contains_iff_mem.mp owns)
  exact Nat.not_le_of_lt (of_decide_eq_true less) lies.first

end Extraction

end ProgramGraph
