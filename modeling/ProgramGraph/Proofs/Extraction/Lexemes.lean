import ProgramGraph.Extraction.Basic
import ProgramGraph.Proofs.Graph.Growth
import ProgramGraph.Proofs.Keeping

/-!
# Lexemes and names without refusals

A pass over lexemes draws edges between lexemes that have their nodes already, and a name is
linked from an element to a lexeme when both have theirs.  So no edge is refused, and what a
pass does can be told without failures: each lexeme adds its node and the edges that come with
it, and at last the edges of the names are added.
-/

namespace ProgramGraph

open Source

namespace Graph

variable {graph : Graph} {source target : NodeId}

theorem map_addEdge_of_contains (kind : EdgeKind) (sourcePresent : graph.contains source)
    (targetPresent : graph.contains target) :
    (·.2) <$> graph.addEdge source target kind = .ok (graph.pushEdge ⟨source, target, kind⟩) := by
  rw [addEdge_of_contains kind sourcePresent targetPresent]
  rfl

end Graph

/-! ## The pass over the lexemes -/

namespace TokenPass

variable {start graph : Graph} {pass : TokenPass} {source : Option NodeId} {target : NodeId}

/-- The node that a lexeme is given. -/
def nodeOf (pass : TokenPass) (lexeme : Lexeme) : Node :=
  pass.graph.freshNode lexeme.nodeKind lexeme.text lexeme.span.first lexeme.span.last

/-- The edge from the lexeme before, if there is one. -/
def chainLinks (pass : TokenPass) : List Edge :=
  (pass.previous.map (⟨·, pass.graph.nextId, .nextToken⟩)).toList

/-- The edge back to the last use of an identifier, if there is one. -/
def useLinks (pass : TokenPass) (lexeme : Lexeme) : List Edge :=
  if lexeme.nodeKind = .identifierToken then
    ((pass.lastUse.get? lexeme.text).map (⟨pass.graph.nextId, ·, .lastLexicalUse⟩)).toList
  else []

/-- The edges that come with the node of a lexeme. -/
def links (pass : TokenPass) (lexeme : Lexeme) : List Edge :=
  pass.chainLinks ++ pass.useLinks lexeme

/-- The pass after one more lexeme. -/
def next (pass : TokenPass) (lexeme : Lexeme) : TokenPass where
  graph := (pass.graph.pushNode (pass.nodeOf lexeme)).pushEdges (pass.links lexeme)
  previous := some pass.graph.nextId
  lastUse :=
    if lexeme.nodeKind = .identifierToken then pass.lastUse.set lexeme.text pass.graph.nextId
    else pass.lastUse
  identifiers :=
    if lexeme.nodeKind = .identifierToken then pass.identifiers.set lexeme.span pass.graph.nextId
    else pass.identifiers

/-- The pass over the lexemes that belong to no documentation. -/
def after (start : Graph) (documents : List Span) (lexemes : List Lexeme) : TokenPass :=
  (lexemes.filter fun lexeme => !isDocumented documents lexeme.span).foldl next { graph := start }

theorem nodeKind_mem (lexeme : Lexeme) :
    lexeme.nodeKind ∈ [NodeKind.token, .identifierToken] := by
  unfold Lexeme.nodeKind
  split
  · split <;> decide
  · decide

theorem grows_pushNode (pass : TokenPass) (lexeme : Lexeme) :
    pass.graph.GrowsInto (pass.graph.pushNode (pass.nodeOf lexeme)) := by
  apply Graph.GrowsInto.pushNode
  intro isRoot
  have listed := nodeKind_mem lexeme
  rw [show lexeme.nodeKind = .astRoot from isRoot] at listed
  exact absurd listed (by decide)

theorem grows_next (pass : TokenPass) (lexeme : Lexeme) :
    pass.graph.GrowsInto (pass.next lexeme).graph := by
  apply (pass.grows_pushNode lexeme).trans
  exact .of_nodes_eq (Graph.nodes_pushEdges _ _)

/-- The lexeme has its node afterwards. -/
theorem hasKind_next (pass : TokenPass) (lexeme : Lexeme) :
    (pass.next lexeme).graph.HasKind pass.graph.nextId [lexeme.nodeKind] := by
  rw [next, Graph.HasKind, Graph.nodes_pushEdges]
  exact pass.graph.hasKind_freshNode _ _ _ (.head [])

/-! ### No refusals -/

/-- Every lexeme that the pass may yet draw an edge to has its node. -/
structure Grounded (start : Graph) (pass : TokenPass) : Prop where
  grows : start.GrowsInto pass.graph
  previous : ∀ id, pass.previous = some id → pass.graph.HasKind id [.token, .identifierToken]
  lastUse : ∀ text id, pass.lastUse.get? text = some id →
    pass.graph.HasKind id [.identifierToken]
  identifiers : ∀ span id, pass.identifiers.get? span = some id →
    pass.graph.HasKind id [.identifierToken]

theorem grounded_start (start : Graph) : Grounded start { graph := start } where
  grows := .of_nodes_eq rfl
  previous _ stored := by cases stored
  lastUse _ _ stored := by cases stored
  identifiers _ _ stored := by cases stored

namespace Grounded

theorem next (grounded : Grounded start pass) (lexeme : Lexeme) :
    Grounded start (pass.next lexeme) := by
  have grows := pass.grows_next lexeme
  have present := pass.hasKind_next lexeme
  constructor
  · exact grounded.grows.trans grows
  · intro id stored
    cases stored
    apply present.mono
    exact List.forall_mem_singleton.mpr (nodeKind_mem lexeme)
  · intro text id stored
    rw [TokenPass.next] at stored
    split at stored
    · next isIdentifier =>
      rw [Table.get?_set] at stored
      split at stored
      · cases stored
        exact isIdentifier ▸ present
      · exact grows.hasKind (grounded.lastUse text id stored)
    · exact grows.hasKind (grounded.lastUse text id stored)
  · intro span id stored
    rw [TokenPass.next] at stored
    split at stored
    · next isIdentifier =>
      rw [Table.get?_set] at stored
      split at stored
      · cases stored
        exact isIdentifier ▸ present
      · exact grows.hasKind (grounded.identifiers span id stored)
    · exact grows.hasKind (grounded.identifiers span id stored)

end Grounded

theorem linkFrom_eq_ok (kind : EdgeKind)
    (sourcePresent : ∀ id, source = some id → graph.contains id)
    (targetPresent : graph.contains target) :
    linkFrom graph source target kind =
      .ok (graph.pushEdges (source.map (⟨·, target, kind⟩)).toList) := by
  cases source with
  | none => rfl
  | some id => exact Graph.map_addEdge_of_contains kind (sourcePresent id rfl) targetPresent

/-- No edge that comes with a lexeme is refused. -/
theorem Grounded.add_eq_ok (grounded : Grounded start pass) (lexeme : Lexeme) :
    pass.add lexeme = .ok (pass.next lexeme) := by
  have grows := pass.grows_pushNode lexeme
  have present := pass.graph.contains_pushNode_self (pass.nodeOf lexeme)
  have linked := linkFrom_eq_ok .nextToken
    (fun id stored => grows.contains (grounded.previous id stored).contains) present
  apply Graph.bind_eq_ok_iff.mpr
  refine ⟨_, linked, ?_⟩
  rw [TokenPass.next, links, Graph.pushEdges_append]
  by_cases identifier : lexeme.nodeKind = .identifierToken
  · simp only [if_pos identifier, useLinks]
    cases used : pass.lastUse.get? lexeme.text with
    | none => rfl
    | some earlier =>
        have earlierPresent := grows.contains (grounded.lastUse lexeme.text earlier used).contains
        have reused := Graph.map_addEdge_of_contains .lastLexicalUse
          ((Graph.contains_pushEdges _ pass.chainLinks _).trans present)
          ((Graph.contains_pushEdges _ pass.chainLinks _).trans earlierPresent)
        exact Graph.bind_eq_ok_iff.mpr ⟨_, reused, rfl⟩
  · simp only [if_neg identifier, useLinks]
    rfl

theorem run_eq_ok (start : Graph) (documents : List Span) (lexemes : List Lexeme) :
    run start documents lexemes = .ok (after start documents lexemes) ∧
      Grounded start (after start documents lexemes) :=
  foldlM_eq_ok
    (fun _ grounded lexeme _ => ⟨grounded.add_eq_ok lexeme, grounded.next lexeme⟩)
    (grounded_start start)

end TokenPass

/-! ## The names -/

namespace Extraction

variable {walk : Walk} {pass : TokenPass} {start : Graph} {names : List (NodeId × Span)}

/-- The edges from elements to the lexemes that their names are.  A name that is no lexeme has
none. -/
def nameLinks (identifiers : Table Span NodeId) (names : List (NodeId × Span)) : List Edge :=
  names.filterMap fun name =>
    (identifiers.get? name.2).map (⟨name.1, ·, .associatedToken⟩)

theorem linkNames_eq_ok
    (owners : ∀ name ∈ names, pass.graph.contains name.1)
    (lexemes : ∀ span id, pass.identifiers.get? span = some id → pass.graph.contains id) :
    linkNames pass names = .ok (pass.graph.pushEdges (nameLinks pass.identifiers names)) := by
  induction names generalizing pass with
  | nil => rfl
  | cons name rest ih =>
      obtain ⟨owner, span⟩ := name
      obtain ⟨ownerPresent, restPresent⟩ := List.forall_mem_cons.mp owners
      rw [linkNames, List.foldlM_cons, nameLinks, List.filterMap_cons]
      dsimp only
      cases stored : pass.identifiers.get? span with
      | none => exact ih restPresent lexemes
      | some id =>
          let grown := pass.graph.pushEdge ⟨owner, id, .associatedToken⟩
          have linked := Graph.map_addEdge_of_contains .associatedToken ownerPresent
            (lexemes span id stored)
          exact Graph.bind_eq_ok_iff.mpr ⟨grown, linked, @ih { pass with graph := grown }
            restPresent lexemes⟩

/-- The extraction that a walk over the outline and the lexemes come to. -/
def finish (walk : Walk) (lexemes : List Lexeme) : Extraction :=
  let pass := TokenPass.after walk.graph walk.documents.reverse lexemes
  { graph := pass.graph.pushEdges (nameLinks pass.identifiers walk.names.reverse)
    types := walk.types }

theorem nodes_finish (walk : Walk) (lexemes : List Lexeme) :
    (finish walk lexemes).graph.nodes =
      (TokenPass.after walk.graph walk.documents.reverse lexemes).graph.nodes :=
  Graph.nodes_pushEdges _ _

end Extraction

end ProgramGraph
