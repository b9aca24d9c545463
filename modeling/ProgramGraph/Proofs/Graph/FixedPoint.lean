import ProgramGraph.Proofs.Graph.Survival

/-!
# The fixed point of pruning

Pruning goes on until no prunable leaf is left, and what it comes to can be told without its
rounds: it takes the nodes that are not supported, counts them, and empties the slots of the
edges that touched one of them.  Whatever is left has a way to go on, so pruning once more finds
nothing to do, and neither would more rounds of the first pruning.
-/

namespace ProgramGraph.Graph

variable {graph last : Graph} {id : NodeId} {removed : List NodeId}

/-! ## How many nodes are taken -/

/-- Taking out a node makes one node less. -/
theorem Invariant.length_nodes_withoutNode (invariant : graph.Invariant)
    (present : graph.contains id) :
    (graph.withoutNode id).nodes.length + 1 = graph.nodes.length := by
  have once : graph.nodes.countP (·.id == id) = 1 := by
    have counted : (graph.nodes.map (·.id)).count id = graph.nodes.countP (·.id == id) :=
      List.countP_map
    rw [← counted]
    apply List.count_eq_one_of_mem invariant.nodup_ids
    exact List.mem_map.mpr (contains_iff.mp present)
  rw [nodes_withoutNode, ← List.countP_eq_length_filter,
    List.length_eq_countP_add_countP (fun node => node.id == id), once, Nat.add_comm]
  simp [Bool.beq_eq_decide_eq]

theorem LeafRemovals.length_nodes_add (removals : LeafRemovals graph removed last)
    (invariant : graph.Invariant) :
    last.nodes.length + removed.length = graph.nodes.length := by
  induction removals with
  | nil graph => rfl
  | @cons graph last id removed leaf _ ih =>
      have present := contains_of_mem_prunableLeaves leaf
      rw [← invariant.length_nodes_withoutNode present, ← ih (invariant.withoutNode present),
        List.length_cons, Nat.add_assoc]

/-! ## Slots -/

/-- A slot keeps its edge if both ends of the edge are left. -/
theorem LeafRemovals.edge?_eq_filter_contains (removals : LeafRemovals graph removed last)
    (invariant : graph.Invariant) (slot : Slot) :
    last.edge? slot = (graph.edge? slot).filter fun edge =>
      last.contains edge.source && last.contains edge.target := by
  rw [removals.edge?_eq invariant]
  cases live : graph.edge? slot with
  | none => rfl
  | some edge =>
      rcases invariant.ends_mem slot edge live with ⟨source, target⟩
      have same : (!removed.any edge.touches) =
          (last.contains edge.source && last.contains edge.target) := by
        rw [Bool.eq_iff_iff, Bool.and_eq_true, removals.contains_iff_of_contains source,
          removals.contains_iff_of_contains target]
        simp only [Edge.touches, Bool.not_eq_true', List.any_eq_false, Bool.or_eq_true,
          beq_iff_eq, not_or]
        constructor
        · intro untouched
          exact ⟨fun taken => (untouched _ taken).1 rfl, fun taken => (untouched _ taken).2 rfl⟩
        · rintro ⟨sourceLeft, targetLeft⟩ id taken
          constructor
          · rintro rfl
            exact sourceLeft taken
          · rintro rfl
            exact targetLeft taken
      rw [Option.filter_some, Option.filter_some, same]

/-! ## Rounds -/

/-- Without prunable leaves there is nothing to do in any number of rounds. -/
theorem pruneRounds_of_no_leaves (noLeaves : graph.prunableLeaves = []) (rounds count : Nat) :
    pruneRounds rounds (count, graph) = (count, graph) := by
  cases rounds with
  | zero => rfl
  | succ rounds => rw [pruneRounds_succ, noLeaves]

theorem pruneRounds_add (rounds more : Nat) (state : Nat × Graph) :
    pruneRounds (rounds + more) state = pruneRounds more (pruneRounds rounds state) := by
  induction rounds generalizing state with
  | zero => rw [Nat.zero_add, pruneRounds_zero]
  | succ rounds ih =>
      rw [Nat.succ_add, pruneRounds_succ, pruneRounds_succ]
      cases leaves : state.2.prunableLeaves with
      | nil => exact (pruneRounds_of_no_leaves leaves more state.1).symm
      | cons id rest => exact ih _

/-! ## Going on from what is left -/

/-- Without prunable leaves, a node of a prunable kind has a successor. -/
theorem Invariant.exists_successor (invariant : graph.Invariant)
    (noLeaves : graph.prunableLeaves = []) {node : Node} (member : node ∈ graph.nodes)
    (prunable : node.kind.isPrunable) :
    ∃ next others, graph.successors node.id none = .ok (next :: others) := by
  rcases invariant.exists_edge_of_no_leaves noLeaves member prunable with ⟨edge, live, leaves⟩
  have listed : edge.target ∈ (graph.edgesFrom node.id none).map (·.target) :=
    List.mem_map_of_mem (List.mem_filter.mpr ⟨live, by simp [leaves, admits]⟩)
  rw [invariant.successors_eq (contains_iff.mpr ⟨node, member, rfl⟩)]
  cases found : ((graph.edgesFrom node.id none).map (·.target)).eraseDups.filterMap graph.node? with
  | nil =>
      have absent := List.filterMap_eq_nil_iff.mp found edge.target (List.mem_eraseDups.mpr listed)
      exact absurd (invariant.ends_of_mem_edges live).2 (node?_eq_none_iff.mp absent)
  | cons next others => exact ⟨next, others, rfl⟩

/-! ## The pruned graph -/

/-- What pruning takes from a graph and what it leaves, by the nodes and edges that were there
before it. -/
structure PrunesExactly (graph : Graph) : Prop where
  /-- Nodes of prunable kinds go unless edges lead from them to a node of another kind or to a
  cycle. -/
  taken_iff : ∀ node ∈ graph.nodes,
    node ∉ graph.prune.2.nodes ↔ node.kind.isPrunable ∧ ¬graph.Supported node.id
  /-- Those that are left are as they were. -/
  left : graph.prune.2.nodes.Sublist graph.nodes
  count : graph.prune.1 = graph.nodes.countP (· ∉ graph.prune.2.nodes)
  edge?_eq : ∀ slot, graph.prune.2.edge? slot = (graph.edge? slot).filter fun edge =>
    graph.prune.2.contains edge.source && graph.prune.2.contains edge.target
  size_slots : graph.prune.2.slots.size = graph.slots.size
  edges_sublist : graph.prune.2.edges.Sublist graph.edges
  goes_on : ∀ node ∈ graph.prune.2.nodes, node.kind.isPrunable →
    ∃ next others, graph.prune.2.successors node.id none = .ok (next :: others)
  again : graph.prune.2.prune = (0, graph.prune.2)
  /-- Pruning has come to its end: no leaf is left, and more rounds make no difference. -/
  ended : graph.prune.2.prunableLeaves = [] ∧
    ∀ rounds, graph.nodes.length ≤ rounds → pruneRounds rounds (0, graph) = graph.prune

namespace Invariant

theorem mem_nodes_prune_iff (invariant : graph.Invariant) {node : Node} :
    node ∈ graph.prune.2.nodes ↔ node ∈ graph.nodes ∧ graph.Supported node.id := by
  rw [invariant.nodes_prune, List.mem_filter, invariant.contains_prune_iff]
  exact and_congr_right fun member => and_iff_right (contains_iff.mpr ⟨node, member, rfl⟩)

/-- The number that pruning answers with is the number of nodes that are gone. -/
theorem count_prune (invariant : graph.Invariant) :
    graph.prune.1 = graph.nodes.countP (· ∉ graph.prune.2.nodes) := by
  rcases prune_removals invariant with ⟨removed, removals, counted, -⟩
  have total := removals.length_nodes_add invariant
  have left : graph.prune.2.nodes.length = graph.nodes.countP (· ∈ graph.prune.2.nodes) := by
    rw [List.countP_eq_length_filter]
    apply congrArg
    conv_lhs => rw [invariant.nodes_prune]
    apply List.filter_congr
    intro node member
    rw [Bool.eq_iff_iff, decide_eq_true_iff, invariant.nodes_prune, List.mem_filter]
    exact (and_iff_right member).symm
  have split := List.length_eq_countP_add_countP (· ∈ graph.prune.2.nodes) (l := graph.nodes)
  simp only [decide_eq_true_eq] at split
  omega

theorem prunesExactly (invariant : graph.Invariant) : graph.PrunesExactly := by
  rcases prune_removals invariant with ⟨removed, removals, -, noLeaves⟩
  constructor
  case taken_iff =>
    intro node member
    rw [invariant.mem_nodes_prune_iff, and_iff_right member]
    constructor
    · intro unsupported
      refine ⟨?_, unsupported⟩
      by_contra kept
      exact unsupported (.of_kept ⟨node, member, rfl, kept⟩)
    · exact And.right
  case left =>
    rw [invariant.nodes_prune]
    exact List.filter_sublist
  case count => exact invariant.count_prune
  case edge?_eq => exact removals.edge?_eq_filter_contains invariant
  case size_slots => exact removals.size_slots
  case edges_sublist =>
    rw [invariant.edges_prune]
    exact List.filter_sublist
  case goes_on => exact fun node member => invariant.prune.exists_successor noLeaves member
  case again => exact pruneRounds_of_no_leaves noLeaves _ 0
  case ended =>
    refine ⟨noLeaves, ?_⟩
    intro rounds enough
    rcases Nat.exists_eq_add_of_le enough with ⟨more, rfl⟩
    rw [pruneRounds_add]
    exact pruneRounds_of_no_leaves noLeaves more graph.prune.1

end Invariant

/-- Pruning a reachable graph leaves its supported nodes and takes all others. -/
theorem prunesExactly_of_reachable (reachable : graph.Reachable) : graph.PrunesExactly :=
  reachable.invariant.prunesExactly

/-- A chain of elements that ends nowhere beside one that ends in a loop and one that ends in a
token, with edges of several kinds. -/
def branches : Graph :=
  Operation.runAll (.empty "branches" {})
    [.createDetached .astElement "nowhere" 0 1, .createDetached .syntheticAstElement "" 0 1,
      .createDetached .astElement "loop" 0 1, .createDetached .astElement "token" 0 1,
      .createDetached .token "t" 0 1, .addEdge ⟨0, 1, .astChild⟩, .addEdge ⟨3, 0, .lastUse⟩,
      .addEdge ⟨2, 2, .computedFrom⟩, .addEdge ⟨3, 4, .associatedToken⟩, .addEdge ⟨4, 1, .none⟩]

theorem prunesExactly_branches :
    branches.Reachable ∧ branches.PrunesExactly ∧ branches.prune.1 = 2 ∧
      branches.prune.2.nodes.map (·.id) = [2, 3, 4] ∧
      branches.prune.2.slots =
        #[none, none, some ⟨2, 2, .computedFrom⟩, some ⟨3, 4, .associatedToken⟩, none] := by
  have reachable : branches.Reachable := (Reachable.empty _ _).runAll _
  exact ⟨reachable, prunesExactly_of_reachable reachable, by decide, by decide, by decide⟩

end ProgramGraph.Graph
