import ProgramGraph.Proofs.Graph.Loading
import ProgramGraph.Proofs.Graph.Questions

/-!
# Growing graphs

A graph grows by nodes that come behind the others and by edges that come into new slots.
What was there stays where it is, so everything that is known of a node or of an edge
outlives all that comes later.
-/

namespace ProgramGraph.Graph

variable {graph next last : Graph} {id source target : NodeId} {kinds others : List NodeKind}

/-! ## Several edges -/

/-- Put edges into new slots, one after the other. -/
def pushEdges (graph : Graph) (edges : List Edge) : Graph :=
  edges.foldl pushEdge graph

theorem pushEdges_append (graph : Graph) (earlier later : List Edge) :
    graph.pushEdges (earlier ++ later) = (graph.pushEdges earlier).pushEdges later :=
  List.foldl_append

@[simp]
theorem nodes_pushEdges (graph : Graph) (edges : List Edge) :
    (graph.pushEdges edges).nodes = graph.nodes := by
  induction edges generalizing graph with
  | nil => rfl
  | cons edge rest ih => exact ih (graph.pushEdge edge)

theorem edges_pushEdges (graph : Graph) (edges : List Edge) :
    (graph.pushEdges edges).edges = graph.edges ++ edges := by
  induction edges generalizing graph with
  | nil => exact (List.append_nil _).symm
  | cons edge rest ih =>
      have pushed := ih (graph.pushEdge edge)
      rw [edges_pushEdge, List.append_assoc] at pushed
      exact pushed

@[simp]
theorem contains_pushEdges (graph : Graph) (edges : List Edge) (id : NodeId) :
    (graph.pushEdges edges).contains id = graph.contains id := by
  rw [contains, contains, nodes_pushEdges]

theorem addEdge_of_contains (kind : EdgeKind) (sourcePresent : graph.contains source)
    (targetPresent : graph.contains target) :
    graph.addEdge source target kind =
      .ok (graph.slots.size, graph.pushEdge ⟨source, target, kind⟩) :=
  addEdge_eq_ok_iff.mpr ⟨sourcePresent, targetPresent, rfl, rfl⟩

/-! ## Nodes of certain kinds -/

/-- The node with this id is of one of these kinds. -/
def HasKind (graph : Graph) (id : NodeId) (kinds : List NodeKind) : Prop :=
  ∃ node ∈ graph.nodes, node.id = id ∧ node.kind ∈ kinds

theorem HasKind.contains (has : graph.HasKind id kinds) : graph.contains id := by
  obtain ⟨node, member, same, _⟩ := has
  exact contains_iff.mpr ⟨node, member, same⟩

theorem HasKind.mono (has : graph.HasKind id kinds) (more : kinds ⊆ others) :
    graph.HasKind id others := by
  obtain ⟨node, member, same, kind⟩ := has
  exact ⟨node, member, same, more kind⟩

/-- The next node has the kind that it is made with. -/
theorem hasKind_freshNode (graph : Graph) {kind : NodeKind} (contents : String)
    (first last : Nat) (listed : kind ∈ kinds) :
    (graph.pushNode (graph.freshNode kind contents first last)).HasKind graph.nextId kinds :=
  ⟨_, List.mem_append_right _ (.head []), rfl, listed⟩

theorem Invariant.kind_mem_of_hasKind (invariant : graph.Invariant)
    (has : graph.HasKind id kinds) {node : Node} (member : node ∈ graph.nodes)
    (same : node.id = id) : node.kind ∈ kinds := by
  obtain ⟨other, otherMember, otherId, kind⟩ := has
  have one : other = node :=
    List.inj_on_of_nodup_map invariant.nodup_ids otherMember member (otherId.trans same.symm)
  exact one ▸ kind

theorem mem_nodesOfKind {node : Node} :
    node ∈ graph.nodesOfKind kinds ↔ node ∈ graph.nodes ∧ node.kind ∈ kinds := by
  simp [nodesOfKind]

@[simp]
theorem nodesOfKind_pushNode (graph : Graph) (node : Node) (kinds : List NodeKind) :
    (graph.pushNode node).nodesOfKind kinds =
      graph.nodesOfKind kinds ++ if node.kind ∈ kinds then [node] else [] := by
  rw [nodesOfKind, nodesOfKind, pushNode, List.filter_append, List.filter_singleton]
  simp

/-! ## Edges of one kind at a node -/

theorem mem_edgesFrom {kind : EdgeKind} {edge : Edge} :
    edge ∈ graph.edgesFrom id (some [kind]) ↔
      edge ∈ graph.edges ∧ edge.source = id ∧ edge.kind = kind := by
  simp [edgesFrom, admits]

theorem mem_edgesInto {kind : EdgeKind} {edge : Edge} :
    edge ∈ graph.edgesInto id (some [kind]) ↔
      edge ∈ graph.edges ∧ edge.target = id ∧ edge.kind = kind := by
  simp [edgesInto, admits]

theorem edgesFrom_pushEdge (graph : Graph) (edge : Edge) (id : NodeId) (kind : EdgeKind) :
    (graph.pushEdge edge).edgesFrom id (some [kind]) =
      graph.edgesFrom id (some [kind]) ++
        if edge.source = id ∧ edge.kind = kind then [edge] else [] := by
  rw [edgesFrom, edgesFrom, edges_pushEdge, List.filter_append, List.filter_singleton]
  simp [admits]

theorem edgesInto_pushEdge (graph : Graph) (edge : Edge) (id : NodeId) (kind : EdgeKind) :
    (graph.pushEdge edge).edgesInto id (some [kind]) =
      graph.edgesInto id (some [kind]) ++
        if edge.target = id ∧ edge.kind = kind then [edge] else [] := by
  rw [edgesInto, edgesInto, edges_pushEdge, List.filter_append, List.filter_singleton]
  simp [admits]

/-- No edge comes from a node that is not there. -/
theorem Invariant.edgesFrom_of_not_contains (invariant : graph.Invariant) (kind : EdgeKind)
    (absent : ¬graph.contains id) : graph.edgesFrom id (some [kind]) = [] := by
  apply List.eq_nil_iff_forall_not_mem.mpr
  intro edge member
  obtain ⟨live, rfl, _⟩ := mem_edgesFrom.mp member
  exact absent (invariant.ends_of_mem_edges live).1

/-- No edge leads to a node that is not there. -/
theorem Invariant.edgesInto_of_not_contains (invariant : graph.Invariant) (kind : EdgeKind)
    (absent : ¬graph.contains id) : graph.edgesInto id (some [kind]) = [] := by
  apply List.eq_nil_iff_forall_not_mem.mpr
  intro edge member
  obtain ⟨live, rfl, _⟩ := mem_edgesInto.mp member
  exact absent (invariant.ends_of_mem_edges live).2

/-! ## Growing without a new root -/

/-- Nodes were put behind the others, none of them a root. -/
def GrowsInto (graph next : Graph) : Prop :=
  ∃ added, next.nodes = graph.nodes ++ added ∧ ∀ node ∈ added, node.kind ≠ .astRoot

namespace GrowsInto

theorem of_nodes_eq (same : next.nodes = graph.nodes) : graph.GrowsInto next :=
  ⟨[], same.trans (List.append_nil _).symm, fun _ member => (List.not_mem_nil member).elim⟩

theorem pushNode (graph : Graph) (node : Node) (other : node.kind ≠ .astRoot) :
    graph.GrowsInto (graph.pushNode node) := by
  refine ⟨[node], rfl, ?_⟩
  intro added member
  rw [List.mem_singleton.mp member]
  exact other

theorem trans (first : graph.GrowsInto next) (second : next.GrowsInto last) :
    graph.GrowsInto last := by
  obtain ⟨earlier, nodes, noRoot⟩ := first
  obtain ⟨later, nextNodes, noRootLater⟩ := second
  refine ⟨earlier ++ later, ?_, ?_⟩
  · rw [nextNodes, nodes, List.append_assoc]
  · intro node member
    rcases List.mem_append.mp member with inEarlier | inLater
    · exact noRoot node inEarlier
    · exact noRootLater node inLater

theorem mem_nodes (grows : graph.GrowsInto next) {node : Node} (member : node ∈ graph.nodes) :
    node ∈ next.nodes := by
  obtain ⟨added, nodes, _⟩ := grows
  rw [nodes]
  exact List.mem_append_left added member

theorem contains (grows : graph.GrowsInto next) (present : graph.contains id) :
    next.contains id := by
  obtain ⟨node, member, same⟩ := contains_iff.mp present
  exact contains_iff.mpr ⟨node, grows.mem_nodes member, same⟩

theorem hasKind (grows : graph.GrowsInto next) (has : graph.HasKind id kinds) :
    next.HasKind id kinds := by
  obtain ⟨node, member, kind⟩ := has
  exact ⟨node, grows.mem_nodes member, kind⟩

theorem roots (grows : graph.GrowsInto next) :
    next.nodesOfKind [.astRoot] = graph.nodesOfKind [.astRoot] := by
  obtain ⟨added, nodes, noRoot⟩ := grows
  have none : added.filter ([NodeKind.astRoot].contains ·.kind) = [] := by
    apply List.filter_eq_nil_iff.mpr
    intro node member isRoot
    exact noRoot node member (by simpa using isRoot)
  rw [nodesOfKind, nodesOfKind, nodes, List.filter_append, none, List.append_nil]

end GrowsInto

theorem contains_pushNode_self (graph : Graph) (node : Node) :
    (graph.pushNode node).contains node.id :=
  contains_iff.mpr ⟨node, List.mem_append_right _ List.mem_cons_self, rfl⟩

/-- Whether the key is free or not, a creation answers with a node of the graph. -/
theorem grows_create (graph : Graph) {kind : NodeKind} (contents : String) (first last : Nat)
    (key : SyntaxKey) (other : kind ≠ .astRoot) :
    graph.GrowsInto (graph.create kind contents first last key).2 ∧
      (graph.create kind contents first last key).2.contains
        (graph.create kind contents first last key).1.id := by
  rw [create]
  cases stands : graph.nodeForKey? key with
  | some node =>
      constructor
      · exact .of_nodes_eq rfl
      · obtain ⟨id, _, found⟩ := Option.bind_eq_some_iff.mp stands
        exact id_of_node? found ▸ contains_of_node? found
  | none =>
      constructor
      · exact .pushNode graph (graph.freshNode kind contents first last) other
      · exact contains_pushNode_self graph _

end ProgramGraph.Graph
