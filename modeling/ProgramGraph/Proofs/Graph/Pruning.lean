import ProgramGraph.Proofs.Graph.Invariant

/-!
# Pruning as a sequence of removals

Pruning works in rounds, and a round removes all leaves that were there when it
began.  `LeafRemovals` describes what a round and the whole of pruning come to: one
node after the other is removed, and each of them is a prunable leaf when its turn
comes.  A leaf stays one while others are removed, which joins the removals of a
round; a round that finds a leaf removes a node, so the rounds that pruning allows
itself are enough and in the end no prunable leaf is left.
-/

namespace ProgramGraph.Graph

variable {graph last : Graph} {id other : NodeId} {node : Node} {removed : List NodeId}

theorem removeNode_eq_ok_iff {rest : Graph} :
    graph.removeNode id = .ok (node, rest) ↔
      graph.node? id = some node ∧ rest = graph.withoutNode id := by
  unfold removeNode
  cases graph.node? id with
  | none => simp
  | some found => simp [eq_comm]

theorem removeNode_eq_error_iff {cause : GraphError} :
    graph.removeNode id = .error cause ↔
      ¬graph.contains id ∧ cause = .unknownNode id := by
  rw [← node?_eq_none_iff, removeNode]
  cases graph.node? id with
  | none => simp [eq_comm]
  | some node => simp

theorem mem_prunableLeaves :
    id ∈ graph.prunableLeaves ↔
      ∃ node ∈ graph.nodes, node.id = id ∧ node.kind.isPrunable ∧ graph.slotsFrom id = [] := by
  simp only [prunableLeaves, isPrunableLeaf, List.mem_map, List.mem_filter, Bool.and_eq_true,
    List.isEmpty_iff]
  constructor
  · rintro ⟨node, ⟨member, prunable, leaf⟩, rfl⟩
    exact ⟨node, member, rfl, prunable, leaf⟩
  · rintro ⟨node, member, rfl, prunable, leaf⟩
    exact ⟨node, ⟨member, prunable, leaf⟩, rfl⟩

theorem contains_of_mem_prunableLeaves (leaf : id ∈ graph.prunableLeaves) :
    graph.contains id := by
  obtain ⟨node, member, same, _, _⟩ := mem_prunableLeaves.mp leaf
  exact contains_iff.mpr ⟨node, member, same⟩

/-- One node after the other is removed, each a prunable leaf at its turn. -/
inductive LeafRemovals : Graph → List NodeId → Graph → Prop
  | nil (graph : Graph) : LeafRemovals graph [] graph
  | cons {graph last : Graph} {id : NodeId} {removed : List NodeId}
      (leaf : id ∈ graph.prunableLeaves)
      (later : LeafRemovals (graph.withoutNode id) removed last) :
      LeafRemovals graph (id :: removed) last

namespace LeafRemovals

theorem append {middle : Graph} {earlier later : List NodeId}
    (first : LeafRemovals graph earlier middle) (second : LeafRemovals middle later last) :
    LeafRemovals graph (earlier ++ later) last := by
  induction first with
  | nil graph => exact second
  | cons leaf _ ih => exact .cons leaf (ih second)

/-- What every removal of a node of the graph keeps, pruning keeps. -/
theorem induct {P : Graph → Prop} (removals : LeafRemovals graph removed last)
    (step : ∀ graph id, P graph → graph.contains id → P (graph.withoutNode id))
    (start : P graph) : P last := by
  induction removals with
  | nil graph => exact start
  | cons leaf _ ih => exact ih (step _ _ start (contains_of_mem_prunableLeaves leaf))

theorem invariant (removals : LeafRemovals graph removed last) (start : graph.Invariant) :
    last.Invariant :=
  removals.induct (fun _ _ invariant present => invariant.withoutNode present) start

theorem length_nodes (removals : LeafRemovals graph removed last) :
    last.nodes.length + removed.length ≤ graph.nodes.length := by
  induction removals with
  | nil graph => simp
  | @cons graph last id removed leaf _ ih =>
      obtain ⟨node, member, same, _, _⟩ := mem_prunableLeaves.mp leaf
      have fewer : (graph.withoutNode id).nodes.length < graph.nodes.length := by
        rw [nodes_withoutNode]
        exact List.length_filter_lt_length_iff_exists.mpr ⟨node, member, by simp [same]⟩
      rw [List.length_cons]
      omega

end LeafRemovals

/-! ## One round -/

/-- A node has no slots to leave by if no edge has it as its source. -/
theorem Invariant.slotsFrom_eq_nil_iff (invariant : graph.Invariant) :
    graph.slotsFrom id = [] ↔ ∀ edge ∈ graph.edges, edge.source ≠ id := by
  rw [invariant.slotsFrom_eq]
  constructor
  · rintro noSlots edge member rfl
    obtain ⟨slot, live⟩ := mem_edges.mp member
    have listed : slot ∈ graph.slotsWhere (·.source == edge.source) :=
      mem_slotsWhere.mpr ⟨edge, live, beq_self_eq_true edge.source⟩
    rw [noSlots] at listed
    cases listed
  · intro noEdge
    apply slotsWhere_eq_nil
    intro slot edge live leaves
    exact noEdge edge (mem_edges.mpr ⟨slot, live⟩) (beq_iff_eq.mp leaves)

/-- A leaf stays a leaf when another node is removed. -/
theorem Invariant.mem_prunableLeaves_withoutNode (invariant : graph.Invariant)
    (present : graph.contains id) (leaf : other ∈ graph.prunableLeaves)
    (different : other ≠ id) : other ∈ (graph.withoutNode id).prunableLeaves := by
  obtain ⟨node, member, same, prunable, noSlots⟩ := mem_prunableLeaves.mp leaf
  apply mem_prunableLeaves.mpr
  refine ⟨node, ?_, same, prunable, ?_⟩
  · simp [member, same, different]
  · rw [(invariant.withoutNode present).slotsFrom_eq_nil_iff,
      edges_withoutNode invariant.toIndexed present]
    intro edge kept
    exact invariant.slotsFrom_eq_nil_iff.mp noSlots edge (List.mem_filter.mp kept).1

theorem Invariant.nodup_prunableLeaves (invariant : graph.Invariant) :
    graph.prunableLeaves.Nodup :=
  invariant.nodup_ids.sublist (List.filter_sublist.map _)

theorem pruneNode_of_contains (present : graph.contains id) (count : Nat) :
    pruneNode (count, graph) id = (count + 1, graph.withoutNode id) := by
  cases found : graph.node? id with
  | none => exact absurd present (node?_eq_none_iff.mp found)
  | some node => simp [pruneNode, removeNode, found]

/-- A round carries out the removals of its leaves and counts them. -/
theorem foldl_pruneNode (leaves : List NodeId) (invariant : graph.Invariant)
    (distinct : leaves.Nodup) (prunable : ∀ id ∈ leaves, id ∈ graph.prunableLeaves)
    (count : Nat) :
    ∃ last, leaves.foldl pruneNode (count, graph) = (count + leaves.length, last) ∧
      LeafRemovals graph leaves last := by
  induction leaves generalizing graph count with
  | nil => exact ⟨graph, rfl, .nil graph⟩
  | cons id rest ih =>
      have leaf := prunable id List.mem_cons_self
      have present := contains_of_mem_prunableLeaves leaf
      obtain ⟨outside, distinct⟩ := List.nodup_cons.mp distinct
      -- The leaves that have not had their turn are still there and still leaves.
      have stillLeaves : ∀ other ∈ rest, other ∈ (graph.withoutNode id).prunableLeaves := by
        intro other member
        apply invariant.mem_prunableLeaves_withoutNode present
        · exact prunable other (List.mem_cons_of_mem id member)
        · rintro rfl
          exact outside member
      obtain ⟨last, folded, removals⟩ :=
        ih (invariant.withoutNode present) distinct stillLeaves (count + 1)
      refine ⟨last, ?_, .cons leaf removals⟩
      rw [List.foldl_cons, pruneNode_of_contains present, folded, List.length_cons]
      congr 1
      omega

/-! ## All rounds -/

theorem pruneRounds_removals (rounds : Nat) (invariant : graph.Invariant) (count : Nat) :
    ∃ removed last, pruneRounds rounds (count, graph) = (count + removed.length, last) ∧
      LeafRemovals graph removed last ∧
      (graph.nodes.length ≤ rounds → last.prunableLeaves = []) := by
  induction rounds generalizing graph count with
  | zero =>
      refine ⟨[], graph, rfl, .nil graph, ?_⟩
      intro enough
      have empty : graph.nodes = [] := List.length_eq_zero_iff.mp (Nat.le_zero.mp enough)
      simp [prunableLeaves, empty]
  | succ rounds ih =>
      rw [pruneRounds_succ]
      cases leaves : graph.prunableLeaves with
      | nil => exact ⟨[], graph, rfl, .nil graph, fun _ => leaves⟩
      | cons id rest =>
          have distinct : (id :: rest).Nodup := leaves ▸ invariant.nodup_prunableLeaves
          have prunable : ∀ other ∈ id :: rest, other ∈ graph.prunableLeaves := by
            rw [leaves]
            exact fun _ member => member
          obtain ⟨middle, folded, round⟩ :=
            foldl_pruneNode (id :: rest) invariant distinct prunable count
          obtain ⟨later, last, rounded, removals, done⟩ :=
            ih (round.invariant invariant) (count + (id :: rest).length)
          refine ⟨(id :: rest) ++ later, last, ?_, round.append removals, ?_⟩
          · change pruneRounds rounds ((id :: rest).foldl pruneNode (count, graph)) = _
            rw [folded, rounded, List.length_append, Nat.add_assoc]
          · intro enough
            -- The round removed a node, so one round less is enough for the rest.
            have fewer := round.length_nodes
            rw [List.length_cons] at fewer
            exact done (by omega)

/-- Pruning removes prunable leaves one by one, counts them and leaves none. -/
theorem prune_removals (invariant : graph.Invariant) :
    ∃ removed, LeafRemovals graph removed graph.prune.2 ∧
      graph.prune.1 = removed.length ∧ graph.prune.2.prunableLeaves = [] := by
  obtain ⟨removed, last, pruned, removals, done⟩ :=
    pruneRounds_removals graph.nodes.length invariant 0
  refine ⟨removed, ?_⟩
  rw [prune, pruned]
  exact ⟨removals, Nat.zero_add _, done (Nat.le_refl _)⟩

theorem Invariant.prune (invariant : graph.Invariant) : graph.prune.2.Invariant := by
  obtain ⟨_, removals, _⟩ := prune_removals invariant
  exact removals.invariant invariant

end ProgramGraph.Graph
