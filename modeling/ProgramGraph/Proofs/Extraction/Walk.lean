import ProgramGraph.Extraction.Basic
import ProgramGraph.Proofs.Graph.Growth
import ProgramGraph.Proofs.Keeping

/-!
# Walks do not fail

A walk over an outline asks for edges only between nodes that it has met: an element was
given its node before its children are visited, documentation points at the element that it
is found in, and a pattern is linked to its type when both have their nodes.  So no step of
a walk is refused.

Nothing is assumed of the places of the elements.  Even if two elements shared a key, so that
one node stood for both, the walk would go on.
-/

namespace ProgramGraph

open Source

/-! ## Single steps of a walk -/

namespace Walk

variable {walk : Walk} {source target : NodeId} {name : String} {id : NodeId}

theorem run_create (placement : Placement) (sort : Nat) (kind : NodeKind) (contents : String)
    (span : Span) (walk : Walk) :
    (create placement sort kind contents span).run walk =
      let key := SyntaxKey.of (placement walk.visited) sort
      let (node, graph) := walk.graph.create kind contents span.first span.last key
      .ok (node.id, { walk with graph, visited := walk.visited + 1 }) :=
  rfl

/-- An edge between nodes of the graph is accepted. -/
theorem run_link (kind : EdgeKind) (sourcePresent : walk.graph.contains source)
    (targetPresent : walk.graph.contains target) :
    (link source target kind).run walk =
      .ok (⟨⟩, { walk with graph := walk.graph.pushEdge ⟨source, target, kind⟩ }) := by
  simp only [link, StateT.run_bind, StateT.run_get, pure_bind,
    Graph.addEdge_of_contains kind sourcePresent targetPresent]
  rfl

/-- A type that was written before keeps its node. -/
theorem run_typeNode_of_known (span : Span) (known : walk.typeNodes.get? name = some id) :
    (typeNode name span).run walk = .ok (id, walk) := by
  simp only [typeNode, StateT.run_bind, StateT.run_get, pure_bind, known]
  rfl

/-- A type that is written for the first time gets the next node. -/
theorem run_typeNode_of_new (span : Span) (new : walk.typeNodes.get? name = none) :
    (typeNode name span).run walk =
      let node := walk.graph.freshNode .type name span.first span.last
      .ok (walk.graph.nextId, { walk with
        graph := walk.graph.pushNode node
        typeNodes := walk.typeNodes.set name walk.graph.nextId }) := by
  simp only [typeNode, StateT.run_bind, StateT.run_get, pure_bind, new]
  rfl

end Walk

/-! ## The walk over an outline -/

namespace Walk

variable {walk : Walk} {root : Node} {owners more : List NodeId} {source target : NodeId}

/-- Every id from which or to which the walk may yet draw an edge is in its graph. -/
structure Grounded (root : Node) (owners : List NodeId) (walk : Walk) : Prop where
  owners : ∀ id ∈ owners, walk.graph.contains id
  names : ∀ name ∈ walk.names, walk.graph.contains name.1
  typeNodes : ∀ name id, walk.typeNodes.get? name = some id → walk.graph.contains id
  root : walk.graph.nodesOfKind [.astRoot] = [root]

namespace Grounded

theorem subset (grounded : Grounded root more walk) (fewer : owners ⊆ more) :
    Grounded root owners walk where
  owners id member := grounded.owners id (fewer member)
  names := grounded.names
  typeNodes := grounded.typeNodes
  root := grounded.root

/-- The graph may grow. -/
theorem grow {next : Walk} (grounded : Grounded root owners walk)
    (grows : walk.graph.GrowsInto next.graph) (names : next.names = walk.names)
    (typeNodes : next.typeNodes = walk.typeNodes) : Grounded root owners next where
  owners id member := grows.contains (grounded.owners id member)
  names name member := grows.contains (grounded.names name (names ▸ member))
  typeNodes name id stored := grows.contains (grounded.typeNodes name id (typeNodes ▸ stored))
  root := grows.roots.trans grounded.root

/-- An id of the graph is an owner as well. -/
theorem cons {id : NodeId} (grounded : Grounded root owners walk)
    (present : walk.graph.contains id) : Grounded root (id :: owners) walk where
  owners := List.forall_mem_cons.mpr ⟨present, grounded.owners⟩
  names := grounded.names
  typeNodes := grounded.typeNodes
  root := grounded.root

end Grounded

theorem delivers_create (placement : Placement) (sort : Nat) {kind : NodeKind} (contents : String)
    (span : Span) (other : kind ≠ .astRoot) :
    Delivers (Grounded root owners) (create placement sort kind contents span)
      fun id => Grounded root (id :: owners) := by
  intro walk grounded
  obtain ⟨grows, present⟩ := walk.graph.grows_create contents span.first span.last
    (SyntaxKey.of (placement walk.visited) sort) other
  refine ⟨_, _, run_create .., Grounded.cons ?_ present⟩
  exact grounded.grow grows rfl rfl

theorem delivers_link (kind : EdgeKind) (sourceIn : source ∈ owners) (targetIn : target ∈ owners) :
    Delivers (Grounded root owners) (link source target kind) fun _ => Grounded root owners := by
  intro walk grounded
  have linked := run_link kind (grounded.owners source sourceIn) (grounded.owners target targetIn)
  exact ⟨_, _, linked, grounded.grow (.of_nodes_eq rfl) rfl rfl⟩

theorem delivers_typeNode (name : String) (span : Span) :
    Delivers (Grounded root owners) (typeNode name span)
      fun id => Grounded root (id :: owners) := by
  intro walk grounded
  cases known : walk.typeNodes.get? name with
  | some id =>
      have present := grounded.typeNodes name id known
      exact ⟨id, walk, run_typeNode_of_known span known, grounded.cons present⟩
  | none =>
      refine ⟨_, _, run_typeNode_of_new span known, ?_⟩
      have grows := Graph.GrowsInto.pushNode walk.graph
        (walk.graph.freshNode .type name span.first span.last) (by simp [Graph.freshNode])
      have present := walk.graph.contains_pushNode_self
        (walk.graph.freshNode .type name span.first span.last)
      constructor
      · intro id member
        rcases List.mem_cons.mp member with rfl | earlier
        · exact present
        · exact grows.contains (grounded.owners id earlier)
      · exact fun other member => grows.contains (grounded.names other member)
      · intro other id stored
        rw [Table.get?_set] at stored
        split at stored
        · cases stored
          exact present
        · exact grows.contains (grounded.typeNodes other id stored)
      · exact grows.roots.trans grounded.root

theorem delivers_giveType (source : SourceText) {pattern : NodeId} (span : Span)
    (patternIn : pattern ∈ owners) :
    Delivers (Grounded root owners) (giveType source pattern span)
      fun _ => Grounded root owners := by
  refine (delivers_typeNode _ span).bind fun id => ?_
  refine (delivers_link .hasType (.tail id patternIn) (.head owners)).bind fun _ => ?_
  apply Delivers.modify
  intro walk grounded
  exact (grounded.subset (List.subset_cons_self id owners)).grow (.of_nodes_eq rfl) rfl rfl

mutual

/-- Whatever the outline is, it is visited below any node of the graph; an element that was
visited is in the graph. -/
theorem delivers_visit (source : SourceText) (placement : Placement) (root : Node)
    (owner : NodeId) (owners : List NodeId) (ownerIn : owner ∈ owners) :
    (outline : Outline) → Delivers (Grounded root owners) (visit source placement owner outline)
      fun answer => Grounded root (answer.toList ++ owners)
  | .element form span attributes children => by
      rw [visit]
      refine (delivers_create placement _ _ _ (by decide)).bind fun id => ?_
      have idIn : id ∈ id :: owners := .head owners
      refine (delivers_link .astChild (.tail id ownerIn) idIn).bind fun _ => ?_
      refine (delivers_visitAll source placement root id _ idIn attributes).bind fun _ => ?_
      refine (delivers_visitAll source placement root id _ idIn children).bind fun _ => ?_
      exact .pure fun walk grounded => grounded
  | .name span => by
      rw [visit]
      refine Delivers.bind (T := fun _ => Grounded root owners) ?_ fun _ => ?_
      · apply Delivers.modify
        intro walk grounded
        refine ⟨grounded.owners, ?_, grounded.typeNodes, grounded.root⟩
        exact List.forall_mem_cons.mpr ⟨grounded.owners owner ownerIn, grounded.names⟩
      · exact .pure fun walk grounded => grounded
  | .document span text => by
      rw [visit]
      refine Delivers.bind (T := fun _ => Grounded root owners) ?_ fun _ => ?_
      · apply Delivers.modify
        exact fun walk grounded =>
          ⟨grounded.owners, grounded.names, grounded.typeNodes, grounded.root⟩
      · refine (delivers_create placement _ _ _ (by decide)).bind fun id => ?_
        refine (delivers_link .comment (.head owners) (.tail id ownerIn)).bind fun _ => ?_
        exact .pure fun walk grounded => grounded.subset (List.subset_cons_self id owners)
  | .ascription attributes pattern type => by
      rw [visit]
      refine (delivers_visitAll source placement root owner owners ownerIn attributes).bind
        fun _ => ?_
      refine (delivers_visit source placement root owner owners ownerIn pattern).bind
        fun answer => ?_
      have typeVisited := delivers_visit source placement root owner (answer.toList ++ owners)
        (List.mem_append_right _ ownerIn) type
      refine typeVisited.bind fun typeAnswer => ?_
      cases answer with
      | none =>
          apply Delivers.pure
          exact fun walk grounded => grounded.subset (List.subset_append_right _ owners)
      | some id =>
          have idIn : id ∈ typeAnswer.toList ++ id :: owners :=
            List.mem_append_right _ (.head owners)
          refine (delivers_giveType source _ idIn).bind fun _ => ?_
          apply Delivers.pure
          intro walk grounded
          apply grounded.subset
          exact fun other member => List.mem_append_right _ (.tail id member)

theorem delivers_visitAll (source : SourceText) (placement : Placement) (root : Node)
    (owner : NodeId) (owners : List NodeId) (ownerIn : owner ∈ owners) :
    (outlines : List Outline) →
      Delivers (Grounded root owners) (visit.visitAll source placement owner outlines)
        fun _ => Grounded root owners
  | [] => .pure fun walk grounded => grounded
  | outline :: outlines => by
      rw [visit.visitAll]
      refine (delivers_visit source placement root owner owners ownerIn outline).bind
        fun answer => ?_
      have later := delivers_visitAll source placement root owner owners ownerIn outlines
      intro walk grounded
      exact later walk (grounded.subset (List.subset_append_right _ owners))

end

/-- The first node of a file is its root, whatever else is there. -/
def rootOf (source : SourceText) (fileName : String) : Node :=
  (Graph.empty fileName source.lines).freshNode .astRoot "" 0 source.chars.length

theorem exists_ofFile_eq_ok (source : SourceText) (placement : Placement) (fileName : String)
    (outlines : List Outline) :
    ∃ walk, ofFile source placement fileName outlines = .ok walk ∧
      Grounded (rootOf source fileName) [0] walk := by
  have start : Grounded (rootOf source fileName) [0]
      { graph := ((Graph.empty fileName source.lines).pushNode
          (rootOf source fileName)).associate (SyntaxKey.of (placement 0) SyntaxKey.fileSort) 0
        visited := 1 } := by
    constructor
    · intro id member
      rw [List.mem_singleton.mp member]
      exact Graph.contains_pushNode_self _ (rootOf source fileName)
    · exact fun _ member => (List.not_mem_nil member).elim
    · exact fun _ _ stored => by cases stored
    · rfl
  obtain ⟨answer, walk, visited, grounded⟩ :=
    delivers_visitAll source placement _ 0 [0] (.head _) outlines _ start
  exact ⟨walk, Graph.bind_eq_ok_iff.mpr ⟨(answer, walk), visited, rfl⟩, grounded⟩

end Walk

end ProgramGraph
