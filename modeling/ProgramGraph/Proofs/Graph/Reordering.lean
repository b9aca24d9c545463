import ProgramGraph.Proofs.Graph.FixedPoint
import ProgramGraph.Proofs.Graph.Loadable

/-!
# Records in another order

A record lists its nodes and its edges, and the order of either list carries no meaning.  The
order of the nodes leaves no trace at all, as nodes are loaded to their places by id.  The order
of the edges decides in which slots they come and so in which order neighbours are told, but
neither who the neighbours of a node are nor what pruning takes.
-/

namespace ProgramGraph

/-- Two records have the same nodes and the same edges in whatever order. -/
structure Record.Reordered (record other : Record) : Prop where
  sourceFile : other.sourceFile = record.sourceFile
  nodes : other.nodes.Perm record.nodes
  edges : other.edges.Perm record.edges

/-- Two pieces of work fail for the same cause, or give answers that are related. -/
def Agree {ε α β : Type} (related : α → β → Prop) : Except ε α → Except ε β → Prop
  | .ok answer, .ok other => related answer other
  | .error cause, .error other => cause = other
  | _, _ => False

namespace Agree

variable {ε α β γ δ : Type} {related : α → β → Prop}

theorem map {next : γ → δ → Prop} {change : α → γ} {changeOther : β → δ}
    {result : Except ε α} {other : Except ε β} (agree : Agree related result other)
    (keeps : ∀ answer answerOther, related answer answerOther →
      next (change answer) (changeOther answerOther)) :
    Agree next (result.map change) (other.map changeOther) := by
  cases result with
  | error cause =>
      cases other with
      | error _ => exact agree
      | ok _ => exact agree.elim
  | ok answer =>
      cases other with
      | error _ => exact agree.elim
      | ok answerOther => exact keeps answer answerOther agree

end Agree

namespace Graph

variable {graph copy : Graph} {record other : Record} {id : NodeId}

/-! ## Loading in another order -/

theorem loadableNodes_of_perm {nodes others : List Node} (perm : others.Perm nodes)
    (loadable : LoadableNodes nodes) : LoadableNodes others where
  nodup_ids := ((perm.map _).nodup_iff).mpr loadable.nodup_ids
  bounded node member := loadable.bounded node (perm.mem_iff.mp member)

theorem loadable_of_reordered (reordered : record.Reordered other) (loadable : record.Loadable) :
    other.Loadable where
  nodes := loadableNodes_of_perm reordered.nodes loadable.nodes
  edges edge member := by
    have ids := reordered.nodes.map (·.id)
    rcases loadable.edges edge (reordered.edges.mem_iff.mp member) with ⟨source, target⟩
    exact ⟨ids.mem_iff.mpr source, ids.mem_iff.mpr target⟩

/-- Nodes with the same ids stand in the same order. -/
theorem nodes_eq_of_perm (invariant : graph.Invariant) (invariantCopy : copy.Invariant)
    (perm : copy.nodes.Perm graph.nodes) : copy.nodes = graph.nodes := by
  apply perm.eq_of_pairwise _ invariantCopy.ids_ascend invariant.ids_ascend
  intro first second _ _ less greater
  exact absurd greater (Nat.lt_asymm less)

theorem firstFreeId_of_perm (perm : other.nodes.Perm record.nodes) :
    other.firstFreeId = record.firstFreeId := by
  apply eq_of_forall_ge_iff
  intro bound
  simp only [firstFreeId_le_iff, perm.mem_iff]

theorem foldlM_loadNode_frame {nodes : List Node} {nodesOnly : Graph}
    (loaded : nodes.foldlM loadNode graph = .ok nodesOnly) :
    ∃ nodes nextId, nodesOnly = { graph with nodes, nextId } := by
  refine foldlM_keeps (P := fun state => ∃ nodes nextId, state = { graph with nodes, nextId })
    ?_ ⟨_, _, rfl⟩ loaded
  rintro state node after ⟨_, _, rfl⟩ stepped
  rcases loadNode_eq_ok_iff.mp stepped with ⟨-, -, rfl⟩
  exact ⟨_, _, rfl⟩

/-- The order of the nodes of a record cannot be seen in its graph. -/
theorem ofRecord_of_perm_nodes (loaded : ofRecord record = .ok graph)
    (sourceFile : other.sourceFile = record.sourceFile)
    (nodes : other.nodes.Perm record.nodes) (edges : other.edges = record.edges) :
    ofRecord other = .ok graph := by
  rcases ofRecord_eq_ok_iff.mp loaded with ⟨nodesOnly, nodesLoaded, edgesLoaded⟩
  have loadable : LoadableNodes other.nodes :=
    loadableNodes_of_perm nodes (exists_foldlM_loadNode_iff.mp ⟨nodesOnly, nodesLoaded⟩)
  have accepted : ∃ next, other.nodes.foldlM loadNode (empty other.sourceFile {}) = .ok next :=
    exists_foldlM_loadNode_iff.mpr loadable
  rcases accepted with ⟨othersOnly, othersLoaded⟩
  have start : (empty record.sourceFile {}).Invariant := .empty _ _
  have startOther : (empty other.sourceFile {}).Invariant := .empty _ _
  have keeps := fun (state : Graph) (node : Node) (after : Graph) (invariant : state.Invariant)
    (stepped : loadNode state node = .ok after) => invariant.loadNode stepped
  have sameNodes : othersOnly.nodes = nodesOnly.nodes := by
    apply nodes_eq_of_perm (foldlM_keeps keeps start nodesLoaded)
      (foldlM_keeps keeps startOther othersLoaded)
    exact (nodes_foldlM_loadNode othersLoaded).trans
      (nodes.trans (nodes_foldlM_loadNode nodesLoaded).symm)
  have sameNextId : othersOnly.nextId = nodesOnly.nextId := by
    apply eq_of_forall_ge_iff
    intro bound
    rw [nextId_foldlM_loadNode othersLoaded, nextId_foldlM_loadNode nodesLoaded]
    simp only [nodes.mem_iff]
    rfl
  have same : othersOnly = nodesOnly := by
    rcases foldlM_loadNode_frame nodesLoaded with ⟨_, _, rfl⟩
    rcases foldlM_loadNode_frame othersLoaded with ⟨_, _, rfl⟩
    cases sameNodes
    cases sameNextId
    rw [sourceFile]
  rw [ofRecord_eq_ok_iff]
  exact ⟨othersOnly, othersLoaded, by rw [same, edges, edgesLoaded]⟩

/-! ## Graphs with reordered edges -/

/-- Two graphs that differ in the order of their edges at most. -/
structure SameUpToOrder (graph copy : Graph) : Prop where
  invariant : graph.Invariant
  invariant_copy : copy.Invariant
  sourceFile : copy.sourceFile = graph.sourceFile
  nodes : copy.nodes = graph.nodes
  nextId : copy.nextId = graph.nextId
  edges : copy.edges.Perm graph.edges

theorem exists_ofRecord_of_reordered (reordered : record.Reordered other)
    (loaded : ofRecord record = .ok graph) :
    ∃ copy, ofRecord other = .ok copy ∧ SameUpToOrder graph copy := by
  have loadable := exists_ofRecord_iff.mp ⟨graph, loaded⟩
  rcases exists_ofRecord_iff.mpr (loadable_of_reordered reordered loadable) with
    ⟨copy, loadedCopy⟩
  rcases toRecord_ofRecord loaded with ⟨sourceFile, nodes, edges⟩
  rcases toRecord_ofRecord loadedCopy with ⟨sourceFileCopy, nodesCopy, edgesCopy⟩
  refine ⟨copy, loadedCopy, ?_⟩
  constructor
  case invariant => exact .ofRecord loaded
  case invariant_copy => exact .ofRecord loadedCopy
  case sourceFile => rw [sourceFile, sourceFileCopy, reordered.sourceFile]
  case nodes =>
    apply nodes_eq_of_perm (.ofRecord loaded) (.ofRecord loadedCopy)
    exact nodesCopy.trans (reordered.nodes.trans nodes.symm)
  case nextId =>
    rw [nextId_ofRecord loaded, nextId_ofRecord loadedCopy, firstFreeId_of_perm reordered.nodes]
  case edges =>
    rw [edges, edgesCopy]
    exact reordered.edges

namespace SameUpToOrder

variable (same : SameUpToOrder graph copy)

include same

theorem contains (id : NodeId) : copy.contains id = graph.contains id := by
  rw [Graph.contains, Graph.contains, same.nodes]

theorem node? : copy.node? = graph.node? := by
  funext id
  rw [Graph.node?, Graph.node?, same.nodes]

theorem nodesOfKind (kinds : List NodeKind) : copy.nodesOfKind kinds = graph.nodesOfKind kinds := by
  rw [Graph.nodesOfKind, Graph.nodesOfKind, same.nodes]

theorem root : copy.root = graph.root := by
  rw [Graph.root, Graph.root, same.nodesOfKind, same.sourceFile]

/-! ### Neighbours -/

/-- The nodes at the ends of reordered edges are the same nodes. -/
theorem perm_ends {edges others : List Edge} (perm : others.Perm edges) (endOf : Edge → NodeId) :
    ((others.map endOf).eraseDups.filterMap copy.node?).Perm
      ((edges.map endOf).eraseDups.filterMap graph.node?) := by
  rw [same.node?]
  exact (perm_eraseDups (perm.map endOf)).filterMap graph.node?

theorem perm_targets (id : NodeId) (kinds : Option (List EdgeKind)) :
    (((copy.edgesFrom id kinds).map (·.target)).eraseDups.filterMap copy.node?).Perm
      (((graph.edgesFrom id kinds).map (·.target)).eraseDups.filterMap graph.node?) :=
  same.perm_ends (same.edges.filter _) _

theorem successors (id : NodeId) (kinds : Option (List EdgeKind)) :
    Agree List.Perm (copy.successors id kinds) (graph.successors id kinds) := by
  by_cases present : graph.contains id
  · have presentInCopy : copy.contains id := (same.contains id).trans present
    rw [same.invariant.successors_eq present, same.invariant_copy.successors_eq presentInCopy]
    exact same.perm_targets id kinds
  · have absentInCopy : ¬copy.contains id := by rwa [same.contains]
    rw [successors_of_not_contains present, successors_of_not_contains absentInCopy]
    exact rfl

theorem predecessors (id : NodeId) (kinds : Option (List EdgeKind)) :
    Agree List.Perm (copy.predecessors id kinds) (graph.predecessors id kinds) := by
  by_cases present : graph.contains id
  · have presentInCopy : copy.contains id := (same.contains id).trans present
    rw [same.invariant.predecessors_eq present, same.invariant_copy.predecessors_eq presentInCopy]
    exact same.perm_ends (same.edges.filter _) _
  · have absentInCopy : ¬copy.contains id := by rwa [same.contains]
    rw [predecessors_of_not_contains present, predecessors_of_not_contains absentInCopy]
    exact rfl

/-! ### Pruning -/

theorem supported_iff : copy.Supported id ↔ graph.Supported id := by
  have leads {source target : NodeId} :
      copy.Leads source target ↔ graph.Leads source target := by
    simp only [Leads, same.edges.mem_iff]
  have kept {id : NodeId} : copy.Kept id ↔ graph.Kept id := by
    simp only [Kept, same.nodes]
  constructor
  · exact Supported.mono leads.mp kept.mp
  · exact Supported.mono leads.mpr kept.mpr

theorem nodes_prune : copy.prune.2.nodes = graph.prune.2.nodes := by
  rw [same.invariant.nodes_prune, same.invariant_copy.nodes_prune, same.nodes]
  apply List.filter_congr
  intro node _
  rw [Bool.eq_iff_iff, same.invariant.contains_prune_iff, same.invariant_copy.contains_prune_iff,
    same.contains, same.supported_iff]

theorem count_prune : copy.prune.1 = graph.prune.1 := by
  rw [same.invariant.count_prune, same.invariant_copy.count_prune, same.nodes_prune, same.nodes]

end SameUpToOrder

end Graph

end ProgramGraph
