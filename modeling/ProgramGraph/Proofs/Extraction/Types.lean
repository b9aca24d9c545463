import ProgramGraph.Proofs.Extraction.Tree

/-!
# The types of an extraction

What is known of types is written down twice: in the table of types, and in the graph as edges
to the nodes of types.  Each step that gives a type writes both, and it gives a type only to an
element that has none, so the two always say the same.

Pruning leaves the table alone.  It can do so because an element with a type is never pruned: it
informs of its type.
-/

namespace ProgramGraph

open Source

variable {graph : Graph} {types : TypeTable} {id pattern : NodeId} {node : Node} {edge : Edge}

theorem TypeTable.isAssignable_iff (table : TypeTable) (source target : NodeId) :
    table.isAssignable source target ↔
      ∃ type, table.typeOf? source = some type ∧ table.typeOf? target = some type := by
  unfold isAssignable
  cases table.typeOf? source with
  | none => simp
  | some left =>
      cases table.typeOf? target with
      | none => simp
      | some right =>
          simp only [beq_iff_eq, Option.some.injEq, exists_eq_left']
          exact eq_comm

namespace Graph

/-- The edges from a node to the nodes of types. -/
def typeEdges (graph : Graph) (id : NodeId) : List Edge :=
  graph.edgesFrom id (some [.hasType])

/-- The nodes of types. -/
def typeNodes (graph : Graph) : List Node :=
  graph.nodesOfKind [.type]

end Graph

namespace Extraction

variable {extraction after : Extraction}

/-- The table of types and the graph of an extraction say the same. -/
structure TypesAgree (extraction : Extraction) : Prop where
  known : ∀ id name, extraction.types.typeOf? id = some name → extraction.graph.contains id
  /-- The nodes in the table are those from which an edge leads to a type. -/
  typed_iff : ∀ id, (∃ name, extraction.types.typeOf? id = some name) ↔
    extraction.graph.typeEdges id ≠ []
  /-- The one edge leads to a node with the name in the table. -/
  one : ∀ id name, extraction.types.typeOf? id = some name →
    ∃ node ∈ extraction.graph.typeNodes, node.contents = name ∧
      extraction.graph.typeEdges id = [⟨id, node.id, .hasType⟩]
  different : (extraction.graph.typeNodes.map (·.contents)).Nodup
  used : ∀ node ∈ extraction.graph.typeNodes,
    ∃ id, ⟨id, node.id, .hasType⟩ ∈ extraction.graph.edges
  assignable_iff : ∀ id other, extraction.types.isAssignable id other ↔
    ∃ node ∈ extraction.graph.typeNodes,
      ⟨id, node.id, .hasType⟩ ∈ extraction.graph.edges ∧
        ⟨other, node.id, .hasType⟩ ∈ extraction.graph.edges
  symm : ∀ id other, extraction.types.isAssignable id other →
    extraction.types.isAssignable other id
  trans : ∀ id other last, extraction.types.isAssignable id other →
    extraction.types.isAssignable other last → extraction.types.isAssignable id last

/-! ## Giving types -/

/-- Whoever has a type in the table has one edge to the node of that type, and whoever has none
has no such edge. -/
structure Typed (extraction : Extraction) : Prop where
  typed : ∀ id name, extraction.types.typeOf? id = some name →
    ∃ node ∈ extraction.graph.typeNodes, node.contents = name ∧
      extraction.graph.typeEdges id = [⟨id, node.id, .hasType⟩]
  untyped : ∀ id, extraction.types.typeOf? id = none → extraction.graph.typeEdges id = []
  different : (extraction.graph.typeNodes.map (·.contents)).Nodup

namespace Typed

/-- Edges of other kinds do not matter. -/
theorem pushEdge (typed : Typed ⟨graph, types⟩) (other : edge.kind ≠ .hasType) :
    Typed ⟨graph.pushEdge edge, types⟩ := by
  have same : ∀ id, (graph.pushEdge edge).typeEdges id = graph.typeEdges id := by
    intro id
    rw [Graph.typeEdges, Graph.edgesFrom_pushEdge, if_neg fun both => other both.2,
      List.append_nil]
    rfl
  constructor
  · intro id name stored
    rw [same]
    exact typed.typed id name stored
  · intro id missing
    rw [same]
    exact typed.untyped id missing
  · exact typed.different

/-- A new type is written otherwise than all others. -/
theorem pushNode (typed : Typed ⟨graph, types⟩)
    (new : node.kind = .type → ∀ other ∈ graph.typeNodes, other.contents ≠ node.contents) :
    Typed ⟨graph.pushNode node, types⟩ := by
  constructor
  · intro id name stored
    obtain ⟨found, member, rest⟩ := typed.typed id name stored
    refine ⟨found, ?_, rest⟩
    rw [Graph.typeNodes, Graph.nodesOfKind_pushNode]
    exact List.mem_append_left _ member
  · exact typed.untyped
  · rw [Graph.typeNodes, Graph.nodesOfKind_pushNode]
    split
    · next isType =>
      rw [List.map_append, List.nodup_append]
      refine ⟨typed.different, List.nodup_singleton _, ?_⟩
      rintro contents earlier _ last rfl
      obtain ⟨other, member, same⟩ := List.mem_map.mp earlier
      have isType := List.mem_singleton.mp isType
      exact new isType other member (same.trans (List.mem_singleton.mp last))
    · rw [List.append_nil]
      exact typed.different

/-- An element without a type is given one. -/
theorem give (typed : Typed ⟨graph, types⟩) (untyped : types.typeOf? pattern = none)
    (member : node ∈ graph.typeNodes) :
    Typed ⟨graph.pushEdge ⟨pattern, node.id, .hasType⟩, types.insert pattern node.contents⟩ := by
  have edges : ∀ id, (graph.pushEdge ⟨pattern, node.id, .hasType⟩).typeEdges id =
      graph.typeEdges id ++ if pattern = id then [⟨pattern, node.id, .hasType⟩] else [] := by
    intro id
    rw [Graph.typeEdges, Graph.edgesFrom_pushEdge]
    simp [Graph.typeEdges]
  constructor
  · intro id name stored
    dsimp only at stored ⊢
    rw [TypeTable.typeOf?_insert] at stored
    rw [edges]
    split at stored
    · next same =>
      cases stored
      subst same
      refine ⟨node, member, rfl, ?_⟩
      rw [if_pos rfl, typed.untyped pattern untyped]
      rfl
    · next other =>
      obtain ⟨found, foundMember, contents, only⟩ := typed.typed id name stored
      refine ⟨found, foundMember, contents, ?_⟩
      rw [if_neg other, List.append_nil]
      exact only
  · intro id missing
    dsimp only at missing ⊢
    rw [TypeTable.typeOf?_insert] at missing
    rw [edges]
    split at missing
    · cases missing
    · next other =>
      rw [if_neg other, List.append_nil]
      exact typed.untyped id missing
  · exact typed.different

end Typed

/-- A step keeps the table of types and the graph alike. -/
theorem Step.typed (step : Step extraction after) (typed : extraction.Typed) : after.Typed := by
  cases step with
  | element => exact (typed.pushNode (by simp [Graph.freshNode])).pushEdge (by simp)
  | knownType graph types pattern node element untyped member isType =>
      exact typed.give untyped
        (Graph.mem_nodesOfKind.mpr ⟨member, List.mem_singleton.mpr isType⟩)
  | newType graph types pattern name first last element untyped new =>
      let node := graph.freshNode .type name first last
      have grown : Typed ⟨graph.pushNode node, types⟩ := by
        apply typed.pushNode
        intro _ other member
        obtain ⟨inGraph, isType⟩ := Graph.mem_nodesOfKind.mp member
        exact new other inGraph (List.mem_singleton.mp isType)
      have listed : node ∈ (graph.pushNode node).typeNodes :=
        Graph.mem_nodesOfKind.mpr ⟨List.mem_append_right _ (.head _), .head _⟩
      exact grown.give untyped listed
  | node graph types kind contents first last listed =>
      apply typed.pushNode
      rintro rfl
      exact absurd listed (by decide)
  | edge graph types edge notChild notType fits => exact typed.pushEdge notType

/-! ## Types in use -/

/-- Some element has this type. -/
def InUse (graph : Graph) (node : Node) : Prop :=
  ∃ id, ⟨id, node.id, .hasType⟩ ∈ graph.edges

/-- A step brings a type together with its first use, and takes no edge away. -/
theorem Step.inUse (step : Step extraction after)
    (used : ∀ node ∈ extraction.graph.typeNodes, InUse extraction.graph node) :
    ∀ node ∈ after.graph.typeNodes, InUse after.graph node := by
  intro node member
  obtain ⟨inGraph, isType⟩ := Graph.mem_nodesOfKind.mp member
  rcases step.mem_nodes inGraph with earlier | listed | ⟨_, use⟩
  · obtain ⟨id, live⟩ := used node (Graph.mem_nodesOfKind.mpr ⟨earlier, isType⟩)
    refine ⟨id, ?_⟩
    rcases step.edges with same | ⟨edge, more, _⟩
    · exact same ▸ live
    · exact more ▸ List.mem_append_left _ live
  · rw [List.mem_singleton.mp isType] at listed
    exact absurd listed (by decide)
  · exact use

/-! ## The table and the graph -/

namespace Typed

theorem mem_typeEdges {id last : NodeId} :
    ⟨id, last, .hasType⟩ ∈ extraction.graph.typeEdges id ↔
      ⟨id, last, .hasType⟩ ∈ extraction.graph.edges := by
  rw [Graph.typeEdges, Graph.mem_edgesFrom]
  exact and_iff_left ⟨rfl, rfl⟩

theorem typeOf?_of_edge (typed : extraction.Typed) (invariant : extraction.graph.Invariant)
    (member : node ∈ extraction.graph.typeNodes)
    (live : ⟨id, node.id, .hasType⟩ ∈ extraction.graph.edges) :
    extraction.types.typeOf? id = some node.contents := by
  have listed := mem_typeEdges.mpr live
  cases stored : extraction.types.typeOf? id with
  | none =>
      rw [typed.untyped id stored] at listed
      cases listed
  | some name =>
      obtain ⟨other, otherMember, rfl, only⟩ := typed.typed id name stored
      rw [only, List.mem_singleton] at listed
      have same : other = node := List.inj_on_of_nodup_map invariant.nodup_ids
        (List.mem_of_mem_filter otherMember) (List.mem_of_mem_filter member)
        (congrArg Edge.target listed).symm
      rw [same]

/-- Two nodes are written with the same type if edges lead from both to one node of a type, and
not otherwise. -/
theorem assignable_iff (typed : extraction.Typed) (invariant : extraction.graph.Invariant)
    (id other : NodeId) :
    extraction.types.isAssignable id other ↔
      ∃ node ∈ extraction.graph.typeNodes,
        ⟨id, node.id, .hasType⟩ ∈ extraction.graph.edges ∧
          ⟨other, node.id, .hasType⟩ ∈ extraction.graph.edges := by
  rw [TypeTable.isAssignable_iff]
  constructor
  · rintro ⟨name, left, right⟩
    obtain ⟨node, member, contents, only⟩ := typed.typed id name left
    obtain ⟨twin, twinMember, twinContents, twinOnly⟩ := typed.typed other name right
    obtain rfl : node = twin := List.inj_on_of_nodup_map typed.different member twinMember
      (contents.trans twinContents.symm)
    refine ⟨node, member, mem_typeEdges.mp ?_, mem_typeEdges.mp ?_⟩
    · exact only ▸ List.mem_singleton_self _
    · exact twinOnly ▸ List.mem_singleton_self _
  · rintro ⟨node, member, left, right⟩
    exact ⟨node.contents, typed.typeOf?_of_edge invariant member left,
      typed.typeOf?_of_edge invariant member right⟩

end Typed

theorem Typed.typesAgree (typed : extraction.Typed) (invariant : extraction.graph.Invariant)
    (used : ∀ node ∈ extraction.graph.typeNodes, InUse extraction.graph node) :
    extraction.TypesAgree := by
  have typed_iff : ∀ id, (∃ name, extraction.types.typeOf? id = some name) ↔
      extraction.graph.typeEdges id ≠ [] := by
    intro id
    constructor
    · rintro ⟨name, stored⟩ none
      obtain ⟨_, _, _, only⟩ := typed.typed id name stored
      rw [none] at only
      cases only
    · intro some
      cases stored : extraction.types.typeOf? id with
      | none => exact absurd (typed.untyped id stored) some
      | some name => exact ⟨name, rfl⟩
  constructor
  · intro id name stored
    by_contra absent
    exact (typed_iff id).mp ⟨name, stored⟩ (invariant.edgesFrom_of_not_contains _ absent)
  · exact typed_iff
  · exact typed.typed
  · exact typed.different
  · exact used
  · exact typed.assignable_iff invariant
  · intro id other
    simp only [TypeTable.isAssignable_iff]
    rintro ⟨name, left, right⟩
    exact ⟨name, right, left⟩
  · intro id other last
    simp only [TypeTable.isAssignable_iff]
    rintro ⟨name, left, middle⟩ ⟨_, same, right⟩
    cases middle.symm.trans same
    exact ⟨name, left, right⟩

/-! ## Pruning -/

/-- No edge to a type is pruned, as its source informs of the type. -/
theorem hasType_survives (planted : graph.Planted) {edge : Edge} (live : edge ∈ graph.edges)
    (isType : edge.kind = .hasType) :
    graph.prune.2.contains edge.source ∧ graph.prune.2.contains edge.target := by
  have invariant := planted.invariant
  obtain ⟨source, target⟩ := planted.fits edge live
  rw [isType] at source target
  have supportedSource := (planted.supported_iff source).mpr
    ⟨_, .refl, edge, live, rfl, isType ▸ .tail _ (.head _)⟩
  obtain ⟨node, member, same, kind⟩ := target
  have kept : node ∈ graph.prune.2.nodes := by
    apply invariant.mem_nodes_prune_of_kept member
    rw [List.mem_singleton.mp kind]
    decide
  exact ⟨invariant.contains_prune_iff.mpr ⟨source.contains, supportedSource⟩,
    Graph.contains_iff.mpr ⟨node, kept, same⟩⟩

theorem typeEdges_prune (planted : graph.Planted) (id : NodeId) :
    graph.prune.2.typeEdges id = graph.typeEdges id := by
  rw [Graph.typeEdges, planted.invariant.edgesFrom_prune]
  apply List.filter_eq_self.mpr
  intro edge member
  obtain ⟨live, _, isType⟩ := Graph.mem_edgesFrom.mp member
  exact Bool.and_eq_true_iff.mpr (hasType_survives planted live isType)

theorem typeNodes_prune (invariant : graph.Invariant) :
    graph.prune.2.typeNodes = graph.typeNodes :=
  invariant.nodesOfKind_prune (by decide)

/-- Pruning keeps the table of types and the graph alike. -/
theorem Typed.prune (typed : Typed ⟨graph, types⟩) (planted : graph.Planted) :
    Typed ⟨graph.prune.2, types⟩ := by
  constructor
  · intro id name stored
    dsimp only
    rw [typeNodes_prune planted.invariant, typeEdges_prune planted]
    exact typed.typed id name stored
  · intro id missing
    dsimp only
    rw [typeEdges_prune planted]
    exact typed.untyped id missing
  · dsimp only
    rw [typeNodes_prune planted.invariant]
    exact typed.different

theorem inUse_prune (planted : graph.Planted) (used : ∀ node ∈ graph.typeNodes, InUse graph node) :
    ∀ node ∈ graph.prune.2.typeNodes, InUse graph.prune.2 node := by
  intro node member
  rw [typeNodes_prune planted.invariant] at member
  obtain ⟨id, live⟩ := used node member
  refine ⟨id, ?_⟩
  rw [planted.invariant.edges_prune]
  exact List.mem_filter.mpr
    ⟨live, Bool.and_eq_true_iff.mpr (hasType_survives planted live rfl)⟩

/-! ## Types of sources -/

variable {placement : Placement} {prune : Bool} {fileName source : String}

/-- The types of an accepted source are told alike by the table and by the graph, whether the
graph is pruned or not. -/
theorem types_of_run (distinct : placement.Separates source)
    (accepted : run placement prune fileName source = .ok extraction) :
    extraction.TypesAgree := by
  obtain ⟨outlines, lexemes, plain, parsed, cut, assembled, rfl⟩ := assemble_of_run accepted
  have planted := planted_of_run distinct (run_of_assemble false parsed cut assembled)
  have steps := steps_of_assemble (distinct outlines parsed) assembled
  have start : Typed (Walk.atRoot (.ofString source) fileName).extraction :=
    ⟨nofun, fun _ _ => rfl, List.nodup_nil⟩
  have unkeyedTyped := steps.keeps Step.typed start
  have typed : plain.Typed :=
    ⟨unkeyedTyped.typed, unkeyedTyped.untyped, unkeyedTyped.different⟩
  have used : ∀ node ∈ plain.graph.typeNodes, InUse plain.graph node :=
    steps.keeps (P := fun extraction => ∀ node ∈ extraction.graph.typeNodes,
      InUse extraction.graph node) Step.inUse fun _ member => (List.not_mem_nil member).elim
  have invariant := (reachable_of_run accepted).invariant
  cases prune with
  | false => exact typed.typesAgree invariant used
  | true => exact (typed.prune planted).typesAgree invariant (inUse_prune planted used)

/-- A function with two patterns of one type and one of another type. -/
def threePatterns : String := "fn f(a: &  u8) \x7b let b: & u8 = a; let c: u8; \x7d"

/-- Two patterns of one type, written with different blanks, and one of another type. -/
theorem types_of_three_lets :
    highPlacement.Separates threePatterns ∧
      ∃ pruned, run highPlacement true "a.rs" threePatterns = .ok pruned ∧
        pruned.TypesAgree := by
  have distinct : highPlacement.Separates threePatterns :=
    Placement.separates_of_all (by decide +kernel)
  have succeeds : (run highPlacement true "a.rs" threePatterns).isOk := by decide +kernel
  obtain ⟨pruned, accepted⟩ := exists_of_isOk succeeds
  exact ⟨distinct, pruned, accepted, types_of_run distinct accepted⟩

end Extraction

end ProgramGraph
