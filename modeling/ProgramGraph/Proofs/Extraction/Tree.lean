import ProgramGraph.Proofs.Extraction.Steps
import ProgramGraph.Proofs.Graph.Survival

/-!
# The tree of the elements

The elements of an extracted graph form a tree below the root, as long as no two elements of
the source share a key.  Each step that brings an element brings its one owner, a node that is
there already and so has a smaller id; no other step touches the tree.

Pruning leaves the part of the tree that carries information: the elements from which one
comes, over elements that they own, to a lexeme or to a type.  An edge to a lexeme or a type is
the only way out of the tree, and there is no way back, so these are the elements that support
themselves.
-/

namespace ProgramGraph

open Relation Source

namespace Graph

variable {graph : Graph} {id owner other : NodeId}

/-! ## Trees of elements -/

/-- The owner of an element stands directly above it. -/
def Owns (graph : Graph) (owner id : NodeId) : Prop :=
  ⟨owner, id, .astChild⟩ ∈ graph.edges

/-- The elements of a graph form a tree below its root. -/
structure AstTree (graph : Graph) : Prop where
  root : ∃ root, graph.nodesOfKind [.astRoot] = [root] ∧ root.id = 0
  /-- One edge of the tree leads to an element, from the root or from an earlier element. -/
  owner : ∀ element ∈ graph.astNodes, ∃ owner < element.id,
    graph.edgesInto element.id (some [.astChild]) = [⟨owner, element.id, .astChild⟩] ∧
      graph.HasKind owner [.astRoot, .astElement]
  /-- No edge of the tree leads to the root. -/
  top : graph.edgesInto 0 (some [.astChild]) = []
  /-- Other nodes take no part in the tree. -/
  others : ∀ node ∈ graph.nodes, node.kind ∉ [NodeKind.astRoot, .astElement] →
    graph.edgesFrom node.id (some [.astChild]) = [] ∧
      graph.edgesInto node.id (some [.astChild]) = []
  reached : ∀ element ∈ graph.astNodes, TransGen graph.Owns 0 element.id
  acyclic : ∀ id, ¬TransGen graph.Owns id id

theorem mem_astNodes {node : Node} :
    node ∈ graph.astNodes ↔ node ∈ graph.nodes ∧ node.kind = .astElement := by
  rw [astNodes, mem_nodesOfKind, List.mem_singleton]

/-- Every element has one owner, an earlier one. -/
def HasOwners (graph : Graph) : Prop :=
  ∀ element ∈ graph.astNodes, ∃ owner < element.id,
    graph.edgesInto element.id (some [.astChild]) = [⟨owner, element.id, .astChild⟩]

namespace HasOwners

theorem lt_of_owns (owners : graph.HasOwners) (fits : ∀ edge ∈ graph.edges, graph.Fits edge)
    (owns : graph.Owns owner id) : owner < id := by
  obtain ⟨element, member, same, kind⟩ := (fits _ owns).2
  obtain ⟨only, earlier, edges⟩ :=
    owners element (mem_astNodes.mpr ⟨member, List.mem_singleton.mp kind⟩)
  have listed : ⟨owner, id, .astChild⟩ ∈ graph.edgesInto element.id (some [.astChild]) :=
    mem_edgesInto.mpr ⟨owns, same.symm, rfl⟩
  rw [edges, List.mem_singleton] at listed
  cases listed
  exact earlier

theorem le_of_path (owners : graph.HasOwners) (fits : ∀ edge ∈ graph.edges, graph.Fits edge)
    (path : ReflTransGen graph.Owns owner id) : owner ≤ id := by
  induction path with
  | refl => exact Nat.le_refl _
  | tail _ owns ih => exact Nat.le_trans ih (Nat.le_of_lt (owners.lt_of_owns fits owns))

/-- Going up from owner to owner one comes to the root. -/
theorem reached (owners : graph.HasOwners) {root : Node}
    (roots : graph.nodesOfKind [.astRoot] = [root])
    (fits : ∀ edge ∈ graph.edges, graph.Fits edge) {element : Node}
    (member : element ∈ graph.astNodes) : TransGen graph.Owns root.id element.id := by
  induction same : element.id using Nat.strong_induction_on generalizing element with
  | h id ih =>
      subst same
      obtain ⟨owner, earlier, edges⟩ := owners element member
      have owns : graph.Owns owner element.id :=
        (mem_edgesInto.mp (edges ▸ List.mem_singleton_self _)).1
      obtain ⟨node, nodeMember, rfl, kind⟩ := (fits _ owns).1
      rcases List.mem_cons.mp kind with isRoot | isElement
      · have listed : node ∈ graph.nodesOfKind [.astRoot] :=
          mem_nodesOfKind.mpr ⟨nodeMember, List.mem_singleton.mpr isRoot⟩
        rw [roots, List.mem_singleton] at listed
        exact .single (listed ▸ owns)
      · have above := ih node.id earlier (mem_nodesOfKind.mpr ⟨nodeMember, isElement⟩) rfl
        exact above.tail owns

/-- A root and an owner for each element make a tree. -/
theorem astTree (owners : graph.HasOwners) (invariant : graph.Invariant)
    (root : ∃ root, graph.nodesOfKind [.astRoot] = [root] ∧ root.id = 0)
    (fits : ∀ edge ∈ graph.edges, graph.Fits edge) : graph.AstTree := by
  obtain ⟨top, roots, topId⟩ := root
  constructor
  · exact ⟨top, roots, topId⟩
  · intro element member
    obtain ⟨owner, earlier, edges⟩ := owners element member
    have owns : graph.Owns owner element.id :=
      (mem_edgesInto.mp (edges ▸ List.mem_singleton_self _)).1
    exact ⟨owner, earlier, edges, (fits _ owns).1⟩
  · apply List.eq_nil_iff_forall_not_mem.mpr
    intro edge listed
    obtain ⟨live, toTop, isChild⟩ := mem_edgesInto.mp listed
    obtain ⟨topMember, topKind⟩ := mem_nodesOfKind.mp (roots ▸ List.mem_singleton_self top)
    have kind := invariant.kind_mem_of_hasKind (fits edge live).2 topMember (topId.trans toTop.symm)
    rw [isChild, List.mem_singleton.mp topKind] at kind
    exact absurd kind (by decide)
  · intro node member other
    constructor
    · apply List.eq_nil_iff_forall_not_mem.mpr
      intro edge listed
      obtain ⟨live, fromNode, isChild⟩ := mem_edgesFrom.mp listed
      have kind := invariant.kind_mem_of_hasKind (fits edge live).1 member fromNode.symm
      rw [isChild] at kind
      exact other kind
    · apply List.eq_nil_iff_forall_not_mem.mpr
      intro edge listed
      obtain ⟨live, toNode, isChild⟩ := mem_edgesInto.mp listed
      have kind := invariant.kind_mem_of_hasKind (fits edge live).2 member toNode.symm
      rw [isChild] at kind
      exact other (.tail _ kind)
  · intro element member
    exact topId ▸ owners.reached roots fits member
  · intro id cycle
    obtain ⟨next, owns, back⟩ := TransGen.head'_iff.mp cycle
    have forward := owners.lt_of_owns fits owns
    exact Nat.lt_irrefl id (Nat.lt_of_lt_of_le forward (owners.le_of_path fits back))

end HasOwners

namespace HasOwners

variable {node : Node} {edge : Edge}

theorem pushNode (owners : graph.HasOwners) (other : node.kind ≠ .astElement) :
    (graph.pushNode node).HasOwners := by
  intro element member
  rw [astNodes, nodesOfKind_pushNode, if_neg (by simpa using other), List.append_nil] at member
  exact owners element member

theorem pushEdge (owners : graph.HasOwners) (other : edge.kind ≠ .astChild) :
    (graph.pushEdge edge).HasOwners := by
  intro element member
  rw [edgesInto_pushEdge, if_neg fun same => other same.2, List.append_nil]
  exact owners element member

/-- A new element comes with an owner, and no other element is given one. -/
theorem pushElement (owners : graph.HasOwners) (invariant : graph.Invariant)
    (next : node.id = graph.nextId) (present : graph.contains owner) :
    ((graph.pushNode node).pushEdge ⟨owner, node.id, .astChild⟩).HasOwners := by
  intro element member
  rw [edgesInto_pushEdge]
  rcases List.mem_append.mp (mem_astNodes.mp member).1 with earlier | last
  · have different : node.id ≠ element.id := by
      rw [next]
      exact Nat.ne_of_gt (invariant.id_lt_nextId element earlier)
    rw [if_neg fun same => different same.1, List.append_nil]
    exact owners element (mem_astNodes.mpr ⟨earlier, (mem_astNodes.mp member).2⟩)
  · obtain rfl := List.mem_singleton.mp last
    have absent : ¬graph.contains element.id := next ▸ invariant.contains_nextId
    obtain ⟨above, aboveMember, rfl⟩ := contains_iff.mp present
    have none := invariant.edgesInto_of_not_contains .astChild absent
    refine ⟨above.id, next ▸ invariant.id_lt_nextId above aboveMember, ?_⟩
    rw [if_pos ⟨rfl, rfl⟩]
    exact congrArg (· ++ _) none

end HasOwners

/-! ## Graphs that steps lead to -/

/-- The elements form a tree, edges join what they should, and nothing but elements may be
pruned. -/
structure Planted (graph : Graph) : Prop where
  invariant : graph.Invariant
  root : ∃ root, graph.nodesOfKind [.astRoot] = [root] ∧ root.id = 0
  kinds : ∀ node ∈ graph.nodes, node.kind.isPrunable → node.kind = .astElement
  fits : ∀ edge ∈ graph.edges, graph.Fits edge
  owners : graph.HasOwners

theorem Planted.astTree (planted : graph.Planted) : graph.AstTree :=
  planted.owners.astTree planted.invariant planted.root planted.fits

end Graph

namespace Extraction

variable {extraction after : Extraction}

/-- Of the nodes that a step brings only elements may be pruned. -/
theorem Step.kinds (step : Step extraction after)
    (kinds : ∀ node ∈ extraction.graph.nodes, node.kind.isPrunable → node.kind = .astElement) :
    ∀ node ∈ after.graph.nodes, node.kind.isPrunable → node.kind = .astElement := by
  intro node member prunable
  rcases step.mem_nodes member with earlier | listed | ⟨isType, _⟩
  · exact kinds node earlier prunable
  · have only : ∀ kind ∈ [NodeKind.astElement, .commentJavadoc, .token, .identifierToken],
        kind.isPrunable → kind = .astElement := by decide
    exact only node.kind listed prunable
  · rw [isType] at prunable
    cases prunable

/-- A step keeps the tree. -/
theorem Step.planted (step : Step extraction after) (planted : extraction.graph.Planted) :
    after.graph.Planted := by
  constructor
  · exact step.invariant planted.invariant
  · exact step.grows.roots ▸ planted.root
  · exact step.kinds planted.kinds
  · intro edge member
    rcases step.edges with same | ⟨new, more, fits⟩
    · exact step.grows.fits (planted.fits edge (same ▸ member))
    · rcases List.mem_append.mp (more ▸ member) with earlier | last
      · exact step.grows.fits (planted.fits edge earlier)
      · exact List.mem_singleton.mp last ▸ fits
  · cases step with
    | element graph types owner contents first last owned =>
        exact planted.owners.pushElement planted.invariant rfl owned.contains
    | knownType => exact planted.owners.pushEdge (by simp)
    | newType => exact (planted.owners.pushNode (by simp [Graph.freshNode])).pushEdge (by simp)
    | node graph types kind contents first last listed =>
        apply planted.owners.pushNode
        rintro rfl
        exact absurd listed (by decide)
    | edge graph types edge notChild notType fits => exact planted.owners.pushEdge notChild

theorem planted_atRoot (source : SourceText) (fileName : String) :
    (Walk.atRoot source fileName).extraction.graph.Planted where
  invariant := (Graph.Invariant.empty fileName source.lines).pushNode rfl
  root := ⟨_, rfl, rfl⟩
  kinds node member prunable := by
    rw [List.mem_singleton.mp member] at prunable
    cases prunable
  fits edge member := (List.not_mem_nil member).elim
  owners element member := (List.not_mem_nil member).elim

end Extraction

/-! ## What pruning leaves of the tree -/

/-- Edges of three kinds come from elements. -/
theorem EdgeKind.mem_of_mem_sources {kind : EdgeKind} (element : .astElement ∈ kind.sources) :
    kind ∈ [astChild, associatedToken, hasType] := by
  revert element
  cases kind <;> decide

namespace Graph

variable {graph : Graph} {id owner other : NodeId} {kinds : List NodeKind}

/-- From a node, or from one that it owns over any number of steps, an edge leads to a lexeme
or to a type. -/
def Informs (graph : Graph) (id : NodeId) : Prop :=
  ∃ other, ReflTransGen graph.Owns id other ∧
    ∃ edge ∈ graph.edges, edge.source = other ∧ edge.kind ∈ [EdgeKind.associatedToken, .hasType]

theorem Informs.of_path (path : ReflTransGen graph.Owns id other) (informs : graph.Informs other) :
    graph.Informs id := by
  obtain ⟨last, rest, edge⟩ := informs
  exact ⟨last, path.trans rest, edge⟩

namespace Planted

/-- An edge from an element leads to one that it owns, to a lexeme or to a type. -/
theorem owns_or_informs (planted : graph.Planted) (element : graph.HasKind id [.astElement])
    (leads : graph.Leads id other) :
    graph.Owns id other ∧ graph.HasKind other [.astElement] ∨ graph.Informs id := by
  obtain ⟨edge, live, rfl, rfl⟩ := leads
  obtain ⟨node, member, same, kind⟩ := element
  have source := planted.invariant.kind_mem_of_hasKind (planted.fits edge live).1 member same
  rw [List.mem_singleton.mp kind] at source
  have target := (planted.fits edge live).2
  rcases List.mem_cons.mp (EdgeKind.mem_of_mem_sources source) with isChild | informs
  · obtain ⟨first, last, edgeKind⟩ := edge
    obtain rfl : edgeKind = .astChild := isChild
    exact .inl ⟨live, target⟩
  · exact .inr ⟨_, .refl, edge, live, rfl, informs⟩

/-- A path from an element that informs of nothing stays in the tree. -/
theorem path_owns_or_informs (planted : graph.Planted)
    (element : graph.HasKind id [.astElement]) (path : ReflTransGen graph.Leads id other) :
    ReflTransGen graph.Owns id other ∧ graph.HasKind other [.astElement] ∨ graph.Informs id := by
  induction path with
  | refl => exact .inl ⟨.refl, element⟩
  | tail _ leads ih =>
      rcases ih with ⟨path, inTree⟩ | informs
      · rcases planted.owns_or_informs inTree leads with ⟨owns, nextInTree⟩ | informs
        · exact .inl ⟨path.tail owns, nextInTree⟩
        · exact .inr (informs.of_path path)
      · exact .inr informs

/-- An element is supported if it informs of something, and not otherwise. -/
theorem supported_iff (planted : graph.Planted) (element : graph.HasKind id [.astElement]) :
    graph.Supported id ↔ graph.Informs id := by
  constructor
  · rintro ⟨last, path, support⟩
    rcases planted.path_owns_or_informs element path with ⟨owns, inTree⟩ | informs
    · rcases support with ⟨node, member, same, kept⟩ | cycle
      · have kind := planted.invariant.kind_mem_of_hasKind inTree member same
        rw [List.mem_singleton.mp kind] at kept
        exact absurd rfl kept
      · -- A cycle cannot stay in the tree, where ids grow from owner to owned.
        obtain ⟨next, leads, back⟩ := TransGen.head'_iff.mp cycle
        rcases planted.owns_or_informs inTree leads with ⟨ownsNext, nextInTree⟩ | informs
        · rcases planted.path_owns_or_informs nextInTree back with ⟨ownsBack, _⟩ | informs
          · have forward := planted.owners.lt_of_owns planted.fits ownsNext
            have backward := planted.owners.le_of_path planted.fits ownsBack
            exact absurd forward (Nat.not_lt_of_le backward)
          · exact informs.of_path (owns.tail ownsNext)
        · exact informs.of_path owns
    · exact informs
  · rintro ⟨last, path, edge, live, rfl, kind⟩
    have leads : ReflTransGen graph.Leads id edge.source :=
      ReflTransGen.mono (fun _ _ owns => ⟨_, owns, rfl, rfl⟩) _ _ path
    obtain ⟨node, member, same, target⟩ := (planted.fits edge live).2
    have kept : ¬node.kind.isPrunable := by
      have none : ∀ edgeKind ∈ [EdgeKind.associatedToken, .hasType],
          ∀ kind ∈ edgeKind.targets, ¬kind.isPrunable := by decide
      exact none edge.kind kind node.kind target
    exact ⟨edge.target, leads.tail ⟨edge, live, rfl, rfl⟩, .inl ⟨node, member, same, kept⟩⟩

theorem hasKind_prune (planted : graph.Planted) (has : graph.HasKind id kinds)
    (survives : graph.prune.2.contains id) : graph.prune.2.HasKind id kinds := by
  obtain ⟨node, member, rfl, kind⟩ := has
  refine ⟨node, ?_, rfl, kind⟩
  rw [planted.invariant.nodes_prune]
  exact List.mem_filter.mpr ⟨member, survives⟩

/-- What pruning leaves is a tree again. -/
theorem prune (planted : graph.Planted) : graph.prune.2.Planted := by
  have invariant := planted.invariant
  constructor
  · exact invariant.prune
  · obtain ⟨root, roots, first⟩ := planted.root
    exact ⟨root, (invariant.nodesOfKind_prune (by decide)).trans roots, first⟩
  · intro node member
    rw [invariant.nodes_prune] at member
    exact planted.kinds node (List.mem_of_mem_filter member)
  · intro edge member
    rw [invariant.edges_prune] at member
    obtain ⟨live, ends⟩ := List.mem_filter.mp member
    obtain ⟨source, target⟩ := Bool.and_eq_true_iff.mp ends
    obtain ⟨fitsSource, fitsTarget⟩ := planted.fits edge live
    exact ⟨planted.hasKind_prune fitsSource source, planted.hasKind_prune fitsTarget target⟩
  · intro element member
    obtain ⟨survives, kind⟩ := mem_astNodes.mp member
    rw [invariant.nodes_prune] at survives
    obtain ⟨earlier, survives⟩ := List.mem_filter.mp survives
    obtain ⟨owner, less, edges⟩ := planted.owners element (mem_astNodes.mpr ⟨earlier, kind⟩)
    have owns : graph.Owns owner element.id :=
      (mem_edgesInto.mp (edges ▸ List.mem_singleton_self _)).1
    -- The owner of a supported element is supported by it.
    have ownerSurvives : graph.prune.2.contains owner := by
      have leads : graph.Leads owner element.id := ⟨_, owns, rfl, rfl⟩
      have supported := (invariant.contains_prune_iff.mp survives).2
      exact invariant.contains_prune_iff.mpr
        ⟨(invariant.contains_of_leads leads).1, supported.head leads⟩
    refine ⟨owner, less, ?_⟩
    rw [invariant.edgesInto_prune, edges, List.filter_singleton, ownerSurvives, survives]
    rfl

/-- Pruning leaves the elements that inform of something. -/
theorem mem_astNodes_prune (planted : graph.Planted) {element : Node}
    (member : element ∈ graph.astNodes) :
    element ∈ graph.prune.2.astNodes ↔ graph.Informs element.id := by
  obtain ⟨inGraph, kind⟩ := mem_astNodes.mp member
  have isElement : graph.HasKind element.id [.astElement] :=
    ⟨element, inGraph, rfl, List.mem_singleton.mpr kind⟩
  rw [mem_astNodes, planted.invariant.nodes_prune, List.mem_filter,
    planted.invariant.contains_prune_iff, planted.supported_iff isElement]
  constructor
  · rintro ⟨⟨_, _, informs⟩, _⟩
    exact informs
  · intro informs
    exact ⟨⟨inGraph, isElement.contains, informs⟩, kind⟩

end Planted

/-- Pruning leaves a tree again.  Of the elements it leaves those that inform of something; all
other nodes stay, and of the edges all those between nodes that are left. -/
structure InformingPart (graph part : Graph) : Prop where
  tree : part.AstTree
  sublist : part.nodes.Sublist graph.nodes
  elements : ∀ element ∈ graph.astNodes, element ∈ part.astNodes ↔ graph.Informs element.id
  others : ∀ node ∈ graph.nodes, node.kind ≠ .astElement → node ∈ part.nodes
  edges : part.edges = graph.edges.filter fun edge =>
    part.contains edge.source && part.contains edge.target

theorem Planted.informingPart (planted : graph.Planted) :
    graph.InformingPart graph.prune.2 where
  tree := planted.prune.astTree
  sublist := planted.invariant.nodes_prune ▸ List.filter_sublist
  elements _ member := planted.mem_astNodes_prune member
  others node member other :=
    planted.invariant.mem_nodes_prune_of_kept member fun prunable =>
      other (planted.kinds node member prunable)
  edges := planted.invariant.edges_prune

end Graph

/-! ## Trees of sources -/

namespace Extraction

variable {placement : Placement} {fileName source : String} {plain : Extraction}

theorem planted_of_run (distinct : placement.Separates source)
    (accepted : run placement false fileName source = .ok plain) : plain.graph.Planted := by
  obtain ⟨outlines, lexemes, _, parsed, _, assembled, rfl⟩ := assemble_of_run accepted
  have steps := steps_of_assemble (distinct outlines parsed) assembled
  have planted : plain.unkeyed.graph.Planted :=
    steps.keeps (P := (·.graph.Planted)) Step.planted (planted_atRoot _ fileName)
  exact ⟨(reachable_of_run accepted).invariant, planted.root, planted.kinds, planted.fits,
    planted.owners⟩

/-- The elements of an accepted source form a tree below its root, and pruning the source
leaves the part of the tree that informs of a lexeme or of a type. -/
theorem tree_of_run (distinct : placement.Separates source)
    (accepted : run placement false fileName source = .ok plain) :
    plain.graph.AstTree ∧ ∃ pruned, run placement true fileName source = .ok pruned ∧
      plain.graph.InformingPart pruned.graph := by
  have planted := planted_of_run distinct accepted
  refine ⟨planted.astTree, plain.pruned true, ?_, planted.informingPart⟩
  obtain ⟨outlines, lexemes, _, parsed, cut, assembled, rfl⟩ := assemble_of_run accepted
  exact run_of_assemble true parsed cut assembled

/-- A function with documentation, a pattern with a type and a literal. -/
def documentedFunction : String := "/// d\nfn f() \x7b let x: u8 = y; 1; \x7d"

/-- A function with documentation, a pattern with a type and a literal, which goes. -/
theorem tree_of_typed_let :
    highPlacement.Separates documentedFunction ∧
      ∃ plain, run highPlacement false "a.rs" documentedFunction = .ok plain ∧
        plain.graph.AstTree ∧
        ∃ pruned, run highPlacement true "a.rs" documentedFunction = .ok pruned ∧
          plain.graph.InformingPart pruned.graph := by
  have distinct : highPlacement.Separates documentedFunction :=
    Placement.separates_of_all (by decide +kernel)
  have succeeds : (run highPlacement false "a.rs" documentedFunction).isOk := by decide +kernel
  obtain ⟨plain, accepted⟩ := exists_of_isOk succeeds
  exact ⟨distinct, plain, accepted, tree_of_run distinct accepted⟩

end Extraction

end ProgramGraph
