import ProgramGraph.Proofs.Graph.FixedPoint

/-!
# Pruning in any order

Pruning takes the leaves of a round by ascending ids.  Leaves may as well be removed one by one in
any other order: as long as one is left, taking it takes none of the supported nodes, and once
none is left all nodes are supported.  So however the removals are picked, those that go on to the
end take the same nodes, and with them the same edges and the same keys as pruning does.
-/

namespace ProgramGraph.Graph

variable {graph last other : Graph} {id : NodeId} {removed others : List NodeId}

/-! ## Removals of single leaves -/

/-- A node of a prunable kind that has no successor is removed. -/
def DropsLeaf (graph : Graph) (id : NodeId) (rest : Graph) : Prop :=
  graph.successors id none = .ok [] ∧
    ∃ node, node.kind ∈ [NodeKind.astElement, .syntheticAstElement] ∧
      graph.removeNode id = .ok (node, rest)

/-- Nodes of prunable kinds are removed one after the other, each when it has no successor. -/
inductive DropsLeaves : Graph → List NodeId → Graph → Prop
  | nil (graph : Graph) : DropsLeaves graph [] graph
  | cons {graph rest last : Graph} {id : NodeId} {removed : List NodeId}
      (first : graph.DropsLeaf id rest) (later : DropsLeaves rest removed last) :
      DropsLeaves graph (id :: removed) last

/-- No removal of a leaf is possible any more. -/
def IsBare (graph : Graph) : Prop :=
  ∀ id rest, ¬graph.DropsLeaf id rest

namespace Invariant

/-- A node has no successors if no edge leaves it. -/
theorem successors_eq_nil_iff (invariant : graph.Invariant) (present : graph.contains id) :
    graph.successors id none = .ok [] ↔ graph.slotsFrom id = [] := by
  rw [invariant.slotsFrom_eq_nil_iff, invariant.successors_eq present]
  constructor
  · intro none edge live leaves
    have listed : edge.target ∈ ((graph.edgesFrom id Option.none).map (·.target)).eraseDups := by
      apply List.mem_eraseDups.mpr
      exact List.mem_map_of_mem (List.mem_filter.mpr ⟨live, by simp [leaves, admits]⟩)
    have absent := List.filterMap_eq_nil_iff.mp (Except.ok.inj none) edge.target listed
    exact node?_eq_none_iff.mp absent (invariant.ends_of_mem_edges live).2
  · intro none
    have noEdges : graph.edgesFrom id Option.none = [] := by
      apply List.filter_eq_nil_iff.mpr
      intro edge live leaves
      rw [Bool.and_eq_true, beq_iff_eq] at leaves
      exact none edge live leaves.1
    rw [noEdges]
    rfl

/-- What is removed when a leaf is dropped is a leaf of pruning. -/
theorem dropsLeaf_iff (invariant : graph.Invariant) :
    graph.DropsLeaf id other ↔ id ∈ graph.prunableLeaves ∧ other = graph.withoutNode id := by
  have prunable_iff : ∀ kind : NodeKind,
      kind ∈ [NodeKind.astElement, .syntheticAstElement] ↔ kind.isPrunable := by
    intro kind
    cases kind <;> decide
  simp only [DropsLeaf, removeNode_eq_ok_iff, prunable_iff, mem_prunableLeaves]
  constructor
  · rintro ⟨none, node, prunable, found, rfl⟩
    have present := contains_of_node? found
    rcases invariant.node?_eq_some_iff.mp found with ⟨member, same⟩
    exact ⟨⟨node, member, same, prunable, (invariant.successors_eq_nil_iff present).mp none⟩, rfl⟩
  · rintro ⟨⟨node, member, same, prunable, none⟩, rfl⟩
    have found := invariant.node?_eq_some_iff.mpr ⟨member, same⟩
    have present := contains_of_node? found
    exact ⟨(invariant.successors_eq_nil_iff present).mpr none, node, prunable, found, rfl⟩

theorem isBare_iff (invariant : graph.Invariant) : graph.IsBare ↔ graph.prunableLeaves = [] := by
  simp only [IsBare, invariant.dropsLeaf_iff, List.eq_nil_iff_forall_not_mem]
  constructor
  · exact fun bare id leaf => bare id _ ⟨leaf, rfl⟩
  · exact fun none id rest drops => none id drops.1

end Invariant

theorem DropsLeaves.removals (drops : DropsLeaves graph removed last)
    (invariant : graph.Invariant) : LeafRemovals graph removed last := by
  induction drops with
  | nil graph => exact .nil graph
  | cons first _ ih =>
      rcases invariant.dropsLeaf_iff.mp first with ⟨leaf, rfl⟩
      exact .cons leaf (ih (invariant.withoutNode (contains_of_mem_prunableLeaves leaf)))

theorem LeafRemovals.dropsLeaves (removals : LeafRemovals graph removed last)
    (invariant : graph.Invariant) : DropsLeaves graph removed last := by
  induction removals with
  | nil graph => exact .nil graph
  | cons leaf _ ih =>
      have present := contains_of_mem_prunableLeaves leaf
      exact .cons (invariant.dropsLeaf_iff.mpr ⟨leaf, rfl⟩) (ih (invariant.withoutNode present))

/-- An endless sequence of removals has stretches of any length. -/
theorem exists_dropsLeaves_of_endless {graphs : Nat → Graph}
    (endless : ∀ turn, ∃ id, (graphs turn).DropsLeaf id (graphs (turn + 1))) (count start : Nat) :
    ∃ removed, removed.length = count ∧
      DropsLeaves (graphs start) removed (graphs (start + count)) := by
  induction count generalizing start with
  | zero => exact ⟨[], rfl, .nil _⟩
  | succ count ih =>
      rcases endless start with ⟨id, first⟩
      rcases ih (start + 1) with ⟨removed, length, later⟩
      rw [Nat.add_right_comm] at later
      exact ⟨id :: removed, congrArg (· + 1) length, .cons first later⟩

/-! ## The same state -/

/-- Two graphs hold the same: they have the same nodes, the same edges in the same slots, the same
keys for each node, and the same next id. -/
structure SameState (graph other : Graph) : Prop where
  sourceFile : graph.sourceFile = other.sourceFile
  lines : graph.lines = other.lines
  nodes : graph.nodes = other.nodes
  slots : graph.slots = other.slots
  slotsFrom : ∀ id, graph.slotsFrom id = other.slotsFrom id
  slotsInto : ∀ id, graph.slotsInto id = other.slotsInto id
  keyMap : graph.keyMap = other.keyMap
  keys : ∀ id, graph.keys id = other.keys id
  nextId : graph.nextId = other.nextId
  liveCount : graph.liveCount = other.liveCount

/-- Arrays of slots of one size are the same if the same edges are in them. -/
theorem slots_eq_of_edge?_eq (size : graph.slots.size = other.slots.size)
    (same : ∀ slot, graph.edge? slot = other.edge? slot) : graph.slots = other.slots := by
  apply Array.ext size
  intro slot within withinOther
  have joined := same slot
  simpa [edge?, within, withinOther] using joined

@[simp]
theorem lines_withoutNode (graph : Graph) (id : NodeId) :
    (graph.withoutNode id).lines = graph.lines := by
  obtain ⟨_, _, _, _, frame⟩ := graph.withoutNode_frame id
  rw [frame]
  rfl

theorem keys_withoutNode (graph : Graph) (id other : NodeId) :
    (graph.withoutNode id).keys other = if id = other then [] else graph.keys other := by
  obtain ⟨_, _, _, _, frame⟩ := graph.withoutNode_frame id
  rw [frame, keys_forgetKeys]
  rfl

namespace LeafRemovals

theorem sourceFile_eq (removals : LeafRemovals graph removed last) :
    last.sourceFile = graph.sourceFile := by
  induction removals with
  | nil graph => rfl
  | cons _ _ ih => rw [ih, sourceFile_withoutNode]

theorem lines_eq (removals : LeafRemovals graph removed last) : last.lines = graph.lines := by
  induction removals with
  | nil graph => rfl
  | cons _ _ ih => rw [ih, lines_withoutNode]

theorem keys_eq (removals : LeafRemovals graph removed last) (id : NodeId) :
    last.keys id = if id ∈ removed then [] else graph.keys id := by
  induction removals with
  | nil graph => simp
  | @cons graph last first removed _ _ ih =>
      rw [ih, keys_withoutNode]
      by_cases here : first = id <;> by_cases later : id ∈ removed <;> simp [here, later, Ne.symm]

/-- Removals that take the same nodes lead to the same state, in whatever order they take them. -/
theorem sameState (removals : LeafRemovals graph removed last)
    (otherRemovals : LeafRemovals graph others other) (invariant : graph.Invariant)
    (same : ∀ id, id ∈ removed ↔ id ∈ others) : SameState last other := by
  have left : ∀ id, last.contains id = other.contains id := by
    intro id
    rw [Bool.eq_iff_iff, removals.contains_iff, otherRemovals.contains_iff, same]
  have edges : ∀ slot, last.edge? slot = other.edge? slot := by
    intro slot
    rw [removals.edge?_eq_filter_contains invariant,
      otherRemovals.edge?_eq_filter_contains invariant]
    simp only [left]
  have slots : last.slots = other.slots :=
    slots_eq_of_edge?_eq (removals.size_slots.trans otherRemovals.size_slots.symm) edges
  have slotsWhere : ∀ keep, last.slotsWhere keep = other.slotsWhere keep := by
    intro keep
    simp only [Graph.slotsWhere, slots, edges]
  have invariantLast := removals.invariant invariant
  have invariantOther := otherRemovals.invariant invariant
  constructor
  case sourceFile => rw [removals.sourceFile_eq, otherRemovals.sourceFile_eq]
  case lines => rw [removals.lines_eq, otherRemovals.lines_eq]
  case nodes =>
    rw [removals.nodes_eq, otherRemovals.nodes_eq]
    simp only [left]
  case slots => exact slots
  case slotsFrom =>
    intro id
    rw [invariantLast.slotsFrom_eq, invariantOther.slotsFrom_eq, slotsWhere]
  case slotsInto =>
    intro id
    rw [invariantLast.slotsInto_eq, invariantOther.slotsInto_eq, slotsWhere]
  case keyMap =>
    funext key
    rw [removals.keyMap_eq invariant, otherRemovals.keyMap_eq invariant,
      KeyMap.foldl_forget_apply, KeyMap.foldl_forget_apply]
    simp only [same]
  case keys =>
    intro id
    rw [removals.keys_eq, otherRemovals.keys_eq]
    simp only [same]
  case nextId => rw [removals.nextId_eq, otherRemovals.nextId_eq]
  case liveCount => rw [invariantLast.counted, invariantOther.counted, slotsWhere]

/-- Removals that go on until no leaf is left take all nodes but the supported ones. -/
theorem mem_iff_of_no_leaves (removals : LeafRemovals graph removed last)
    (invariant : graph.Invariant) (noLeaves : last.prunableLeaves = []) :
    id ∈ removed ↔ graph.contains id ∧ ¬graph.Supported id := by
  have left : last.contains id ↔ graph.contains id ∧ graph.Supported id :=
    removals.contains_iff_of_no_leaves invariant noLeaves
  rw [removals.contains_iff] at left
  constructor
  · intro taken
    have present := removals.contains_of_mem taken
    exact ⟨present, fun supported => (left.mpr ⟨present, supported⟩).2 taken⟩
  · rintro ⟨present, unsupported⟩
    by_contra kept
    exact unsupported (left.mp ⟨present, kept⟩).2

end LeafRemovals

/-! ## Confluence -/

/-- Removals of single leaves come to what pruning comes to, in whatever order they go. -/
structure PrunesInAnyOrder (graph : Graph) : Prop where
  /-- No sequence of removals goes on for ever. -/
  ends : ∀ graphs : Nat → Graph, graphs 0 = graph →
    ∃ turn, ∀ id, ¬(graphs turn).DropsLeaf id (graphs (turn + 1))
  /-- Each sequence takes as many nodes as pruning at most. -/
  length_le : ∀ removed last, DropsLeaves graph removed last → removed.length ≤ graph.prune.1
  /-- A sequence that stops early is completed by pruning. -/
  stopped : ∀ removed last, DropsLeaves graph removed last →
    removed.length + last.prune.1 = graph.prune.1 ∧ SameState last.prune.2 graph.prune.2
  /-- A sequence that goes on until no leaf is left does what pruning does. -/
  completed : ∀ removed last, DropsLeaves graph removed last → last.IsBare →
    removed.length = graph.prune.1 ∧ SameState last graph.prune.2
  /-- There is a sequence that does. -/
  exists_completed : ∃ removed, DropsLeaves graph removed graph.prune.2 ∧ graph.prune.2.IsBare

namespace Invariant

/-- However leaves are picked, the removals that go on to the end do the same. -/
theorem completed (invariant : graph.Invariant) (removals : LeafRemovals graph removed last)
    (noLeaves : last.prunableLeaves = []) :
    removed.length = graph.prune.1 ∧ SameState last graph.prune.2 := by
  rcases prune_removals invariant with ⟨pruned, pruning, counted, ended⟩
  have same : ∀ id, id ∈ removed ↔ id ∈ pruned := by
    intro id
    rw [removals.mem_iff_of_no_leaves invariant noLeaves,
      pruning.mem_iff_of_no_leaves invariant ended]
  have state := removals.sameState pruning invariant same
  have taken := removals.length_nodes_add invariant
  have takenByPruning := pruning.length_nodes_add invariant
  rw [state.nodes] at taken
  exact ⟨by omega, state⟩

/-- Removals that stop early go on by pruning. -/
theorem stopped (invariant : graph.Invariant) (removals : LeafRemovals graph removed last) :
    removed.length + last.prune.1 = graph.prune.1 ∧ SameState last.prune.2 graph.prune.2 := by
  rcases prune_removals (removals.invariant invariant) with ⟨rest, pruning, counted, ended⟩
  have all := invariant.completed (removals.append pruning) ended
  rw [List.length_append, ← counted] at all
  exact all

theorem prunesInAnyOrder (invariant : graph.Invariant) : graph.PrunesInAnyOrder := by
  have bounded : ∀ removed last, DropsLeaves graph removed last →
      removed.length ≤ graph.prune.1 := by
    intro removed last drops
    have total := (invariant.stopped (drops.removals invariant)).1
    omega
  constructor
  case ends =>
    rintro graphs rfl
    by_contra never
    have endless : ∀ turn, ∃ id, (graphs turn).DropsLeaf id (graphs (turn + 1)) := by
      simpa only [not_exists, not_forall, not_not] using never
    rcases exists_dropsLeaves_of_endless endless ((graphs 0).prune.1 + 1) 0 with
      ⟨removed, length, drops⟩
    have atMost := bounded removed _ drops
    omega
  case length_le => exact bounded
  case stopped => exact fun removed last drops => invariant.stopped (drops.removals invariant)
  case completed =>
    intro removed last drops bare
    have removals := drops.removals invariant
    exact invariant.completed removals ((removals.invariant invariant).isBare_iff.mp bare)
  case exists_completed =>
    rcases prune_removals invariant with ⟨removed, removals, -, ended⟩
    exact ⟨removed, removals.dropsLeaves invariant, invariant.prune.isBare_iff.mpr ended⟩

end Invariant

/-- In a reachable graph leaves may be removed one by one in any order: this comes to an end, and
to the end that pruning comes to. -/
theorem prunesInAnyOrder_of_reachable (reachable : graph.Reachable) : graph.PrunesInAnyOrder :=
  reachable.invariant.prunesInAnyOrder

/-- Two elements with keys below a third one, beside a loop. -/
def forked : Graph :=
  Operation.runAll (.empty "forked" {})
    [.create .astElement "stem" 0 2 10, .create .astElement "left" 0 1 11,
      .create .syntheticAstElement "right" 1 2 12, .create .astElement "loop" 0 0 13,
      .addEdge ⟨0, 1, .astChild⟩, .addEdge ⟨0, 2, .astChild⟩, .addEdge ⟨3, 3, .lastUse⟩,
      .addEdge ⟨3, 1, .none⟩]

theorem prunesInAnyOrder_forked :
    forked.Reachable ∧ forked.PrunesInAnyOrder ∧ forked.prune.1 = 3 ∧
      DropsLeaves forked [2, 1, 0]
        (((forked.withoutNode 2).withoutNode 1).withoutNode 0) := by
  have reachable : forked.Reachable := (Reachable.empty _ _).runAll _
  have first : forked.DropsLeaf 2 (forked.withoutNode 2) := ⟨by decide, _, by decide, rfl⟩
  have second : (forked.withoutNode 2).DropsLeaf 1 ((forked.withoutNode 2).withoutNode 1) :=
    ⟨by decide, _, by decide, rfl⟩
  have third : ((forked.withoutNode 2).withoutNode 1).DropsLeaf 0
      (((forked.withoutNode 2).withoutNode 1).withoutNode 0) :=
    ⟨by decide, _, by decide, rfl⟩
  exact ⟨reachable, prunesInAnyOrder_of_reachable reachable, by decide,
    .cons first (.cons second (.cons third (.nil _)))⟩

end ProgramGraph.Graph
