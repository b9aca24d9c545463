import Mathlib.Logic.Relation
import ProgramGraph.Proofs.Extraction.Keyless

/-!
# Steps of an extraction

Whatever a source says, its graph grows by steps of few sorts.  An element comes together with
the edge from the element or root that it belongs to.  A type is given to an element that had
none, by an edge to the node of that type, which is new if the type is.  Documentation and
lexemes come without edges, and all other edges join what is there already.

A walk keeps tables beside its graph: the nodes of the types by how they are written, and the
owners of names.  As long as they tell the truth about the graph, the walk goes on by steps.
-/

namespace ProgramGraph

open Relation Source

/-! ## What edges join -/

namespace EdgeKind

/-- The kinds of nodes that an edge of an extracted graph comes from. -/
def sources : EdgeKind → List NodeKind
  | astChild | associatedToken => [.astRoot, .astElement]
  | comment => [.commentJavadoc]
  | hasType => [.astElement]
  | nextToken => [.token, .identifierToken]
  | lastLexicalUse => [.identifierToken]
  | _ => []

/-- The kinds of nodes that an edge of an extracted graph leads to. -/
def targets : EdgeKind → List NodeKind
  | astChild => [.astElement]
  | comment => [.astRoot, .astElement]
  | hasType => [.type]
  | nextToken => [.token, .identifierToken]
  | lastLexicalUse | associatedToken => [.identifierToken]
  | _ => []

end EdgeKind

namespace Graph

variable {graph next : Graph} {edge : Edge}

/-- The ends of an edge are nodes of the kinds that such an edge joins. -/
def Fits (graph : Graph) (edge : Edge) : Prop :=
  graph.HasKind edge.source edge.kind.sources ∧ graph.HasKind edge.target edge.kind.targets

theorem GrowsInto.fits (grows : graph.GrowsInto next) (fits : graph.Fits edge) :
    next.Fits edge :=
  ⟨grows.hasKind fits.1, grows.hasKind fits.2⟩

end Graph

/-! ## Steps -/

namespace Extraction

/-- What an extraction does in one step. -/
inductive Step : Extraction → Extraction → Prop
  /-- An element is put below its owner. -/
  | element (graph : Graph) (types : TypeTable) (owner : NodeId) (contents : String)
      (first last : Nat) (owned : graph.HasKind owner [.astRoot, .astElement]) :
      Step ⟨graph, types⟩
        ⟨(graph.pushNode (graph.freshNode .astElement contents first last)).pushEdge
          ⟨owner, graph.nextId, .astChild⟩, types⟩
  /-- An element is given a type that has a node. -/
  | knownType (graph : Graph) (types : TypeTable) (pattern : NodeId) (node : Node)
      (element : graph.HasKind pattern [.astElement]) (untyped : types.typeOf? pattern = none)
      (member : node ∈ graph.nodes) (isType : node.kind = .type) :
      Step ⟨graph, types⟩
        ⟨graph.pushEdge ⟨pattern, node.id, .hasType⟩, types.insert pattern node.contents⟩
  /-- An element is given a type that had no node. -/
  | newType (graph : Graph) (types : TypeTable) (pattern : NodeId) (name : String)
      (first last : Nat) (element : graph.HasKind pattern [.astElement])
      (untyped : types.typeOf? pattern = none)
      (new : ∀ node ∈ graph.nodes, node.kind = .type → node.contents ≠ name) :
      Step ⟨graph, types⟩
        ⟨(graph.pushNode (graph.freshNode .type name first last)).pushEdge
          ⟨pattern, graph.nextId, .hasType⟩, types.insert pattern name⟩
  /-- Documentation or a lexeme comes in. -/
  | node (graph : Graph) (types : TypeTable) (kind : NodeKind) (contents : String)
      (first last : Nat) (listed : kind ∈ [NodeKind.commentJavadoc, .token, .identifierToken]) :
      Step ⟨graph, types⟩ ⟨graph.pushNode (graph.freshNode kind contents first last), types⟩
  /-- An edge of another kind joins nodes that are there. -/
  | edge (graph : Graph) (types : TypeTable) (edge : Edge) (notChild : edge.kind ≠ .astChild)
      (notType : edge.kind ≠ .hasType) (fits : graph.Fits edge) :
      Step ⟨graph, types⟩ ⟨graph.pushEdge edge, types⟩

/-- An extraction after some steps. -/
abbrev Steps : Extraction → Extraction → Prop :=
  ReflTransGen Step

variable {extraction after : Extraction}

namespace Step

theorem grows (step : Step extraction after) : extraction.graph.GrowsInto after.graph := by
  cases step with
  | element => exact .pushNode _ _ (by simp [Graph.freshNode])
  | knownType => exact .of_nodes_eq rfl
  | newType => exact .pushNode _ _ (by simp [Graph.freshNode])
  | node graph types kind contents first last listed =>
      apply Graph.GrowsInto.pushNode
      rintro rfl
      exact absurd listed (by decide)
  | edge => exact .of_nodes_eq rfl

/-- A step keeps the invariant of graphs. -/
theorem invariant (step : Step extraction after) (invariant : extraction.graph.Invariant) :
    after.graph.Invariant := by
  have grows := step.grows
  cases step with
  | element graph types owner contents first last owned =>
      apply (invariant.pushNode rfl).pushEdge
      · exact (grows.hasKind owned).contains
      · exact graph.contains_pushNode_self _
  | knownType graph types pattern node element untyped member isType =>
      apply invariant.pushEdge
      · exact element.contains
      · exact Graph.contains_iff.mpr ⟨node, member, rfl⟩
  | newType graph types pattern name first last element untyped new =>
      apply (invariant.pushNode rfl).pushEdge
      · exact (grows.hasKind element).contains
      · exact graph.contains_pushNode_self _
  | node => exact invariant.pushNode rfl
  | edge graph types edge notChild notType fits =>
      exact invariant.pushEdge fits.1.contains fits.2.contains

/-- A step adds an edge that joins nodes of the right kinds, or none. -/
theorem edges (step : Step extraction after) :
    after.graph.edges = extraction.graph.edges ∨
      ∃ edge, after.graph.edges = extraction.graph.edges ++ [edge] ∧ after.graph.Fits edge := by
  have grows := step.grows
  cases step with
  | element graph types owner contents first last owned =>
      exact .inr ⟨_, Graph.edges_pushEdge _ _, grows.hasKind owned,
        graph.hasKind_freshNode _ _ _ (.head _)⟩
  | knownType graph types pattern node element untyped member isType =>
      exact .inr ⟨_, Graph.edges_pushEdge _ _, element, node, member, rfl, isType ▸ .head []⟩
  | newType graph types pattern name first last element untyped new =>
      exact .inr ⟨_, Graph.edges_pushEdge _ _, grows.hasKind element,
        graph.hasKind_freshNode _ _ _ (.head _)⟩
  | node => exact .inl rfl
  | edge graph types edge notChild notType fits =>
      exact .inr ⟨edge, Graph.edges_pushEdge _ _, fits⟩

/-- A node that a step brings is of few kinds.  A type comes with an edge to it. -/
theorem mem_nodes (step : Step extraction after) {node : Node} (member : node ∈ after.graph.nodes) :
    node ∈ extraction.graph.nodes ∨
      node.kind ∈ [NodeKind.astElement, .commentJavadoc, .token, .identifierToken] ∨
      node.kind = .type ∧ ∃ id, ⟨id, node.id, .hasType⟩ ∈ after.graph.edges := by
  cases step with
  | element =>
      rcases List.mem_append.mp member with earlier | last
      · exact .inl earlier
      · rw [List.mem_singleton.mp last]
        exact .inr (.inl (.head _))
  | knownType => exact .inl member
  | newType graph types pattern =>
      rcases List.mem_append.mp member with earlier | last
      · exact .inl earlier
      · rw [List.mem_singleton.mp last, Graph.edges_pushEdge]
        exact .inr (.inr ⟨rfl, pattern, List.mem_append_right _ (.head _)⟩)
  | node graph types kind contents first last listed =>
      rcases List.mem_append.mp member with earlier | last
      · exact .inl earlier
      · rw [List.mem_singleton.mp last]
        exact .inr (.inl (.tail _ listed))
  | edge => exact .inl member

end Step

/-- What every step keeps, all steps together keep. -/
theorem Steps.keeps {P : Extraction → Prop} (steps : Steps extraction after)
    (keeps : ∀ {extraction after}, Step extraction after → P extraction → P after)
    (start : P extraction) : P after := by
  induction steps with
  | refl => exact start
  | tail _ step ih => exact keeps step ih

end Extraction

/-! ## Walks go by steps -/

namespace Walk

open Extraction

variable {walk middle after : Walk} {owner pattern bound lower : NodeId}

/-- What a walk has come to so far. -/
def extraction (walk : Walk) : Extraction where
  graph := walk.graph
  types := walk.types

/-- The tables of a walk tell the truth about its graph. -/
structure Ready (walk : Walk) : Prop where
  names : ∀ name ∈ walk.names, walk.graph.HasKind name.1 [.astRoot, .astElement]
  /-- The table of the types finds their nodes. -/
  typeNodes : ∀ name id, walk.typeNodes.get? name = some id ↔
    ∃ node ∈ walk.graph.nodes, node.id = id ∧ node.kind = .type ∧ node.contents = name
  /-- Nodes that are yet to come have no types. -/
  typed : ∀ id, walk.graph.nextId ≤ id → walk.types.typeOf? id = none
  ids : ∀ node ∈ walk.graph.nodes, node.id < walk.graph.nextId

/-- A walk went on by steps to another that is ready.  The types of the nodes below a bound
are as they were. -/
structure GoesTo (bound : NodeId) (walk after : Walk) : Prop where
  steps : Steps walk.extraction after.extraction
  ready : after.Ready
  grows : walk.graph.GrowsInto after.graph
  nextId_le : walk.graph.nextId ≤ after.graph.nextId
  types : ∀ id < bound, after.types.typeOf? id = walk.types.typeOf? id

namespace GoesTo

theorem refl (ready : walk.Ready) : GoesTo bound walk walk where
  steps := .refl
  ready := ready
  grows := .of_nodes_eq rfl
  nextId_le := Nat.le_refl _
  types _ _ := rfl

theorem trans (first : GoesTo bound walk middle) (second : GoesTo bound middle after) :
    GoesTo bound walk after where
  steps := first.steps.trans second.steps
  ready := second.ready
  grows := first.grows.trans second.grows
  nextId_le := Nat.le_trans first.nextId_le second.nextId_le
  types id below := (second.types id below).trans (first.types id below)

theorem mono (goes : GoesTo bound walk after) (le : lower ≤ bound) :
    GoesTo lower walk after where
  steps := goes.steps
  ready := goes.ready
  grows := goes.grows
  nextId_le := goes.nextId_le
  types id below := goes.types id (Nat.lt_of_lt_of_le below le)

end GoesTo

namespace Ready

theorem addEdge (ready : walk.Ready) (edge : Edge) : (walk.addEdge edge).Ready where
  names := ready.names
  typeNodes := ready.typeNodes
  typed := ready.typed
  ids := ready.ids

theorem ids_pushNode (ready : walk.Ready) {node : Node} (next : node.id = walk.graph.nextId) :
    ∀ other ∈ (walk.graph.pushNode node).nodes, other.id < walk.graph.nextId + 1 := by
  intro other member
  rcases List.mem_append.mp member with earlier | last
  · exact Nat.lt_succ_of_lt (ready.ids other earlier)
  · rw [List.mem_singleton.mp last, next]
    exact Nat.lt_succ_self _

theorem addNode (ready : walk.Ready) {kind : NodeKind} (contents : String) (span : Span)
    (notRoot : kind ≠ .astRoot) (notType : kind ≠ .type) :
    (walk.addNode kind contents span).Ready where
  names name member := by
    have grows := Graph.GrowsInto.pushNode walk.graph
      (walk.graph.freshNode kind contents span.first span.last) notRoot
    exact grows.hasKind (ready.names name member)
  typeNodes name id := by
    rw [Walk.addNode, ready.typeNodes]
    constructor
    · rintro ⟨node, member, isNode⟩
      exact ⟨node, List.mem_append_left _ member, isNode⟩
    · rintro ⟨node, member, isNode⟩
      rcases List.mem_append.mp member with earlier | last
      · exact ⟨node, earlier, isNode⟩
      · rw [List.mem_singleton.mp last] at isNode
        exact absurd isNode.2.1 notType
  typed id later := ready.typed id (Nat.le_of_succ_le later)
  ids := ready.ids_pushNode rfl

/-- A type that the table does not know has no node. -/
theorem contents_ne (ready : walk.Ready) {name : String}
    (new : walk.typeNodes.get? name = none) :
    ∀ node ∈ walk.graph.nodes, node.kind = .type → node.contents ≠ name := by
  rintro node member isType rfl
  have stored := (ready.typeNodes node.contents node.id).mpr ⟨node, member, rfl, isType, rfl⟩
  rw [new] at stored
  cases stored

/-- A type that had no node is given one. -/
theorem addTypeNode (ready : walk.Ready) {name : String} (span : Span)
    (new : walk.typeNodes.get? name = none) : (walk.addTypeNode name span).2.Ready := by
  simp only [Walk.addTypeNode, new]
  constructor
  · intro other member
    have grows := Graph.GrowsInto.pushNode walk.graph
      (walk.graph.freshNode .type name span.first span.last) (by simp [Graph.freshNode])
    exact grows.hasKind (ready.names other member)
  · intro other id
    rw [Table.get?_set]
    constructor
    · intro stored
      split at stored
      · next same =>
        cases stored
        exact ⟨_, List.mem_append_right _ (.head []), rfl, rfl, same⟩
      · obtain ⟨node, member, isNode⟩ := (ready.typeNodes other id).mp stored
        exact ⟨node, List.mem_append_left _ member, isNode⟩
    · rintro ⟨node, member, rfl, isType, rfl⟩
      rcases List.mem_append.mp member with earlier | last
      · have stored := (ready.typeNodes node.contents node.id).mpr
          ⟨node, earlier, rfl, isType, rfl⟩
        rw [if_neg (ready.contents_ne new node earlier isType).symm, stored]
      · rw [List.mem_singleton.mp last]
        exact if_pos rfl
  · exact fun id later => ready.typed id (Nat.le_of_succ_le later)
  · exact ready.ids_pushNode rfl

theorem insertType (ready : walk.Ready) (name : String) (present : walk.graph.contains pattern) :
    Ready { walk with types := walk.types.insert pattern name } where
  names := ready.names
  typeNodes := ready.typeNodes
  typed id later := by
    obtain ⟨node, member, same⟩ := Graph.contains_iff.mp present
    have earlier : pattern < id := same ▸ Nat.lt_of_lt_of_le (ready.ids node member) later
    rw [TypeTable.typeOf?_insert, if_neg (Nat.ne_of_lt earlier)]
    exact ready.typed id later
  ids := ready.ids

/-- An element is put below its owner. -/
theorem goesTo_element (ready : walk.Ready) (contents : String) (span : Span)
    (owned : walk.graph.HasKind owner [.astRoot, .astElement]) :
    GoesTo bound walk ((walk.addNode .astElement contents span).addEdge
      ⟨owner, walk.graph.nextId, .astChild⟩) := by
  have step := Step.element walk.graph walk.types owner contents span.first span.last owned
  constructor
  · exact .single step
  · exact (ready.addNode contents span (by decide) (by decide)).addEdge _
  · exact step.grows
  · exact Nat.le_succ _
  · exact fun _ _ => rfl

/-- A name is noted with its owner. -/
theorem goesTo_name (ready : walk.Ready) (span : Span)
    (owned : walk.graph.HasKind owner [.astRoot, .astElement]) :
    GoesTo bound walk { walk with names := (owner, span) :: walk.names } where
  steps := .refl
  ready :=
    { ready with names := List.forall_mem_cons.mpr ⟨owned, ready.names⟩ }
  grows := .of_nodes_eq rfl
  nextId_le := Nat.le_refl _
  types _ _ := rfl

/-- Documentation points at its owner. -/
theorem goesTo_document (ready : walk.Ready) (text : String) (span : Span)
    (owned : walk.graph.HasKind owner [.astRoot, .astElement]) :
    GoesTo bound walk (({ walk with documents := span :: walk.documents }.addNode
      .commentJavadoc text span).addEdge ⟨walk.graph.nextId, owner, .comment⟩) := by
  have noted : Ready { walk with documents := span :: walk.documents } :=
    ⟨ready.names, ready.typeNodes, ready.typed, ready.ids⟩
  have node := Step.node walk.graph walk.types .commentJavadoc text span.first span.last (by decide)
  have fits : (walk.graph.pushNode (walk.graph.freshNode .commentJavadoc text span.first
      span.last)).Fits ⟨walk.graph.nextId, owner, .comment⟩ :=
    ⟨walk.graph.hasKind_freshNode _ _ _ (.head _), node.grows.hasKind owned⟩
  have edge := Step.edge _ walk.types _ (by simp) (by simp) fits
  constructor
  · exact .tail (.single node) edge
  · exact (noted.addNode text span (by decide) (by decide)).addEdge _
  · exact node.grows.trans edge.grows
  · exact Nat.le_succ _
  · exact fun _ _ => rfl

/-- An element that has no type is given one. -/
theorem goesTo_addType (ready : walk.Ready) (source : SourceText) (span : Span)
    (element : walk.graph.HasKind pattern [.astElement])
    (untyped : walk.types.typeOf? pattern = none) :
    GoesTo pattern walk (walk.addType source pattern span) := by
  have types : ∀ name, ∀ id < pattern,
      (walk.types.insert pattern name).typeOf? id = walk.types.typeOf? id := by
    intro name id below
    rw [TypeTable.typeOf?_insert, if_neg (Nat.ne_of_gt below)]
  unfold addType
  generalize String.ofList (Unicode.squeeze (source.slice span)) = name
  cases known : walk.typeNodes.get? name with
  | some id =>
      simp only [Walk.addTypeNode, known]
      obtain ⟨node, member, rfl, isType, rfl⟩ := (ready.typeNodes name id).mp known
      have step := Step.knownType walk.graph walk.types pattern node element untyped member isType
      constructor
      · exact .single step
      · exact (ready.addEdge _).insertType _ element.contains
      · exact step.grows
      · exact Nat.le_refl _
      · exact types _
  | none =>
      have typeReady := ready.addTypeNode span known
      simp only [Walk.addTypeNode, known] at typeReady ⊢
      have step := Step.newType walk.graph walk.types pattern name span.first span.last element
        untyped (ready.contents_ne known)
      constructor
      · exact .single step
      · exact (typeReady.addEdge _).insertType name (step.grows.hasKind element).contains
      · exact step.grows
      · exact Nat.le_succ _
      · exact types name

end Ready

/-- An element that came in since a walk was at `walk` and that has no type yet. -/
structure Awaits (walk after : Walk) (id : NodeId) : Prop where
  new : walk.graph.nextId ≤ id
  below : id < after.graph.nextId
  element : after.graph.HasKind id [.astElement]
  untyped : after.types.typeOf? id = none

namespace Awaits

variable {id : NodeId}

theorem later (awaits : Awaits walk middle id) (goes : GoesTo middle.graph.nextId middle after) :
    Awaits walk after id where
  new := awaits.new
  below := Nat.lt_of_lt_of_le awaits.below goes.nextId_le
  element := goes.grows.hasKind awaits.element
  untyped := (goes.types id awaits.below).trans awaits.untyped

theorem since (awaits : Awaits middle after id) (le : walk.graph.nextId ≤ middle.graph.nextId) :
    Awaits walk after id :=
  { awaits with new := Nat.le_trans le awaits.new }

end Awaits

theorem Ready.awaits_element (ready : walk.Ready) (contents : String) (span : Span)
    (owner : NodeId) :
    Awaits walk ((walk.addNode .astElement contents span).addEdge
      ⟨owner, walk.graph.nextId, .astChild⟩) walk.graph.nextId where
  new := Nat.le_refl _
  below := Nat.lt_succ_self _
  element := walk.graph.hasKind_freshNode contents span.first span.last (.head [])
  untyped := ready.typed _ (Nat.le_refl _)

mutual

/-- The walk over an outline goes by steps.  An element that it answers with has no type. -/
theorem goesTo_follow (source : SourceText) (owner : NodeId) :
    (outline : Outline) → (walk : Walk) → walk.Ready →
      walk.graph.HasKind owner [.astRoot, .astElement] →
      GoesTo walk.graph.nextId walk (follow source owner outline walk).2 ∧
      ∀ id, (follow source owner outline walk).1 = some id →
        Awaits walk (follow source owner outline walk).2 id
  | .element form span attributes children, walk, ready, owned => by
      rw [follow]
      have enters : GoesTo walk.graph.nextId walk _ :=
        ready.goesTo_element form.label (source.carrySpan span) owned
      have awaits := ready.awaits_element form.label (source.carrySpan span) owner
      have owns := awaits.element.mono (List.subset_cons_self .astRoot _)
      have described :=
        goesTo_followAll source walk.graph.nextId attributes _ enters.ready owns
      have filled := goesTo_followAll source walk.graph.nextId children _ described.ready
        (described.grows.hasKind owns)
      constructor
      · have visits := described.trans (filled.mono described.nextId_le)
        exact enters.trans (visits.mono enters.nextId_le)
      · intro id answered
        cases answered
        exact (awaits.later described).later filled
  | .name span, walk, ready, owned => by
      rw [follow]
      exact ⟨ready.goesTo_name (source.carrySpan span) owned, nofun⟩
  | .document span text, walk, ready, owned => by
      rw [follow]
      exact ⟨ready.goesTo_document text (source.carrySpan span) owned, nofun⟩
  | .ascription attributes pattern type, walk, ready, owned => by
      rw [follow]
      have described := goesTo_followAll source owner attributes walk ready owned
      have owned := described.grows.hasKind owned
      obtain ⟨patternVisited, answers⟩ :=
        goesTo_follow source owner pattern _ described.ready owned
      have owned := patternVisited.grows.hasKind owned
      obtain ⟨typeVisited, _⟩ :=
        goesTo_follow source owner type _ patternVisited.ready owned
      have visits := described.trans <| (patternVisited.trans <|
        typeVisited.mono patternVisited.nextId_le).mono described.nextId_le
      dsimp only
      split
      · next id answered =>
        have awaits := ((answers id answered).since described.nextId_le).later typeVisited
        have given := typeVisited.ready.goesTo_addType source (source.carrySpan type.span)
          awaits.element awaits.untyped
        exact ⟨visits.trans (given.mono awaits.new), nofun⟩
      · exact ⟨visits, nofun⟩

/-- The walk over outlines goes by steps. -/
theorem goesTo_followAll (source : SourceText) (owner : NodeId) :
    (outlines : List Outline) → (walk : Walk) → walk.Ready →
      walk.graph.HasKind owner [.astRoot, .astElement] →
      GoesTo walk.graph.nextId walk (followAll source owner outlines walk)
  | [], walk, ready, owned => .refl ready
  | outline :: outlines, walk, ready, owned => by
      rw [followAll]
      obtain ⟨goes, _⟩ := goesTo_follow source owner outline walk ready owned
      have later := goesTo_followAll source owner outlines _ goes.ready (goes.grows.hasKind owned)
      exact goes.trans (later.mono goes.nextId_le)

end

/-- The walk at the root of a file. -/
def atRoot (source : SourceText) (fileName : String) : Walk :=
  addNode .astRoot "" ⟨0, source.chars.length⟩
    { graph := .empty fileName source.lines, visited := 0 }

theorem ready_atRoot (source : SourceText) (fileName : String) :
    (atRoot source fileName).Ready where
  names _ member := (List.not_mem_nil member).elim
  typeNodes name id := by
    constructor
    · intro stored
      cases stored
    · rintro ⟨node, member, -, isType, -⟩
      rw [List.mem_singleton.mp member] at isType
      cases isType
  typed _ _ := rfl
  ids node member := by
    rw [List.mem_singleton.mp member]
    exact Nat.lt_succ_self 0

theorem goesTo_followFile (source : SourceText) (fileName : String) (outlines : List Outline) :
    GoesTo 1 (atRoot source fileName) (followFile source fileName outlines) :=
  goesTo_followAll source 0 outlines _ (ready_atRoot source fileName)
    (Graph.hasKind_freshNode _ _ _ _ (.head _))

end Walk

/-! ## Lexemes and names go by steps -/

namespace Extraction

variable {graph start : Graph} {pass : TokenPass} {walk : Walk}

theorem steps_pushEdges (types : TypeTable) {edges : List Edge}
    (fits : ∀ edge ∈ edges, edge.kind ≠ .astChild ∧ edge.kind ≠ .hasType ∧ graph.Fits edge) :
    Steps ⟨graph, types⟩ ⟨graph.pushEdges edges, types⟩ := by
  induction edges generalizing graph with
  | nil => exact .refl
  | cons edge rest ih =>
      obtain ⟨⟨notChild, notType, edgeFits⟩, restFits⟩ := List.forall_mem_cons.mp fits
      exact .head (.edge graph types edge notChild notType edgeFits) (ih restFits)

/-- A lexeme comes in by steps. -/
theorem steps_next (grounded : pass.Grounded start) (lexeme : Lexeme) (types : TypeTable) :
    Steps ⟨pass.graph, types⟩ ⟨(pass.next lexeme).graph, types⟩ := by
  have grows := pass.grows_pushNode lexeme
  have node := Step.node pass.graph types lexeme.nodeKind lexeme.text lexeme.span.first
    lexeme.span.last (.tail _ (TokenPass.nodeKind_mem lexeme))
  refine .head node (steps_pushEdges types ?_)
  intro edge member
  rcases List.mem_append.mp member with inChain | inUse
  · rw [TokenPass.chainLinks, Option.mem_toList, Option.map_eq_some_iff] at inChain
    obtain ⟨earlier, stored, rfl⟩ := inChain
    refine ⟨?_, ?_, grows.hasKind (grounded.previous earlier stored), ?_⟩
    · rintro ⟨⟩
    · rintro ⟨⟩
    · exact pass.graph.hasKind_freshNode _ _ _ (TokenPass.nodeKind_mem lexeme)
  · rw [TokenPass.useLinks] at inUse
    split at inUse
    · next isIdentifier =>
      rw [Option.mem_toList, Option.map_eq_some_iff] at inUse
      obtain ⟨earlier, stored, rfl⟩ := inUse
      refine ⟨?_, ?_, ?_, grows.hasKind (grounded.lastUse lexeme.text earlier stored)⟩
      · rintro ⟨⟩
      · rintro ⟨⟩
      · exact pass.graph.hasKind_freshNode _ _ _ (isIdentifier ▸ .head [])
    · cases inUse

theorem steps_foldl_next (grounded : pass.Grounded start) (lexemes : List Lexeme)
    (types : TypeTable) :
    Steps ⟨pass.graph, types⟩ ⟨(lexemes.foldl TokenPass.next pass).graph, types⟩ := by
  induction lexemes generalizing pass with
  | nil => exact .refl
  | cons lexeme rest ih =>
      exact (steps_next grounded lexeme types).trans (ih (grounded.next lexeme))

/-- After a walk an extraction goes on by steps. -/
theorem steps_finish (ready : walk.Ready) (lexemes : List Lexeme) :
    Steps walk.extraction (finish walk lexemes) := by
  obtain ⟨_, grounded⟩ := TokenPass.run_eq_ok walk.graph walk.documents.reverse lexemes
  apply (steps_foldl_next (TokenPass.grounded_start walk.graph) _ walk.types).trans
  apply steps_pushEdges
  intro edge member
  obtain ⟨name, noted, found⟩ := List.mem_filterMap.mp member
  obtain ⟨id, stored, rfl⟩ := Option.map_eq_some_iff.mp found
  have owned := grounded.grows.hasKind (ready.names name (List.mem_reverse.mp noted))
  exact ⟨nofun, nofun, owned, grounded.identifiers name.2 id stored⟩

/-- If the keys of a file and of its elements differ, its extraction comes about by steps, from
the root alone. -/
theorem steps_of_assemble {text : SourceText} {placement : Placement} {fileName : String}
    {outlines : List Outline} {lexemes : List Lexeme} {extraction : Extraction}
    (distinct : (placement.keys outlines).Nodup)
    (assembled : assemble text placement fileName outlines lexemes = .ok extraction) :
    Steps (Walk.atRoot text fileName).extraction extraction.unkeyed := by
  rw [unkeyed_of_assemble distinct assembled]
  have goes := Walk.goesTo_followFile text fileName outlines
  exact goes.steps.trans (steps_finish goes.ready lexemes)

end Extraction

end ProgramGraph
