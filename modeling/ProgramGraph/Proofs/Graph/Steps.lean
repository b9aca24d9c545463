import ProgramGraph.Proofs.Graph.Refusals

/-!
# What one operation does to a node and to a slot

Seen from one node an operation either takes the node out of the graph or leaves it as
it is, and seen from one slot it either empties the slot or leaves the edge in it.
`Operation.takesNode` and `Operation.takesSlot` say which operations take what.  What is
not there does not come back: a new node has an id that was never given out, and a new
edge has a slot behind all others.
-/

namespace ProgramGraph

/-- Whether an operation takes a node out of a graph. -/
def Operation.takesNode (graph : Graph) (id : NodeId) : Operation → Bool
  | removeNode other => other == id
  | prune => graph.prunedIds.contains id
  | _ => false

/-- Whether an operation empties a slot: directly, as the earliest slot of an edge, or with
a node that the edge touches. -/
def Operation.takesSlot (graph : Graph) (slot : Slot) : Operation → Bool
  | removeEdgeAt other => other == slot
  | removeEdge edge =>
      graph.edge? slot == some edge && (List.range slot).all (graph.edge? · != some edge)
  | removeNode id => (graph.edge? slot).any (·.touches id)
  | prune => (graph.edge? slot).any fun edge => graph.prunedIds.any edge.touches
  | _ => false

namespace Graph

variable {graph : Graph} {id : NodeId} {node : Node} {slot : Slot} {edge : Edge}

/-! ## Nodes of changed graphs -/

theorem node?_pushNode (graph : Graph) (node : Node) (id : NodeId) :
    (graph.pushNode node).node? id =
      (graph.node? id).or (if node.id = id then some node else none) := by
  rw [node?, pushNode, List.find?_append, node?]
  congr 1
  by_cases same : node.id = id <;> simp [same]

@[simp]
theorem node?_discardSlot (graph : Graph) (slot : Slot) (id : NodeId) :
    (graph.discardSlot slot).node? id = graph.node? id := by
  obtain ⟨_, _, _, _, frame⟩ := graph.discardSlot_frame slot
  rw [frame]
  rfl

theorem node?_withoutNode (graph : Graph) (gone id : NodeId) :
    (graph.withoutNode gone).node? id = if id = gone then none else graph.node? id := by
  rw [node?, nodes_withoutNode, List.find?_filter]
  by_cases same : id = gone
  · subst same
    simp
  · rw [if_neg same, node?]
    congr 1
    funext node
    by_cases here : node.id = id
    · simp [here, same]
    · simp [here]

@[simp]
theorem nextId_discardSlot (graph : Graph) (slot : Slot) :
    (graph.discardSlot slot).nextId = graph.nextId := by
  obtain ⟨_, _, _, _, frame⟩ := graph.discardSlot_frame slot
  rw [frame]

theorem size_slots_withoutNode (graph : Graph) (id : NodeId) :
    (graph.withoutNode id).slots.size = graph.slots.size :=
  size_slots_discardSlots (graph.dropNode id) (graph.incidentSlots id)

/-! ## Pruning as a whole -/

namespace LeafRemovals

variable {last : Graph} {removed : List NodeId}

theorem node?_eq (removals : LeafRemovals graph removed last) (id : NodeId) :
    last.node? id = if id ∈ removed then none else graph.node? id := by
  induction removals with
  | nil graph => simp
  | @cons graph last first removed _ _ ih =>
      rw [ih, node?_withoutNode]
      by_cases here : id = first <;> by_cases later : id ∈ removed <;> simp [here, later]

theorem edge?_eq (removals : LeafRemovals graph removed last) (invariant : graph.Invariant)
    (slot : Slot) :
    last.edge? slot = (graph.edge? slot).filter fun edge => !removed.any edge.touches := by
  induction removals with
  | nil graph => cases graph.edge? slot <;> simp [Option.filter]
  | cons leaf _ ih =>
      have present := contains_of_mem_prunableLeaves leaf
      rw [ih (invariant.withoutNode present), edge?_withoutNode invariant.toIndexed present,
        Option.filter_filter]
      simp

theorem size_slots (removals : LeafRemovals graph removed last) :
    last.slots.size = graph.slots.size := by
  induction removals with
  | nil graph => rfl
  | cons _ _ ih => rw [ih, size_slots_withoutNode]

theorem nextId_eq (removals : LeafRemovals graph removed last) : last.nextId = graph.nextId := by
  induction removals with
  | nil graph => rfl
  | cons _ _ ih => rw [ih, nextId_withoutNode]

end LeafRemovals

/-! ## The earliest of equal edges -/

/-- Removing an edge empties the earliest slot that holds it. -/
theorem Invariant.removeEdge_eq_ok_iff (invariant : graph.Invariant) {next : Graph} :
    graph.removeEdge edge = .ok next ↔
      ∃ slot, graph.edge? slot = some edge ∧
        (∀ earlier < slot, graph.edge? earlier ≠ some edge) ∧ next = graph.discardSlot slot := by
  have ascend := slotsWhere_ascend graph (·.source == edge.source)
  have listed : ∀ slot, graph.edge? slot = some edge →
      slot ∈ graph.slotsWhere (·.source == edge.source) := fun slot live =>
    mem_slotsWhere.mpr ⟨edge, live, beq_self_eq_true edge.source⟩
  have found : ∀ slot,
      (graph.slotsFrom edge.source).find? (graph.edge? · == some edge) = some slot ↔
        graph.edge? slot = some edge ∧ ∀ earlier < slot, graph.edge? earlier ≠ some edge := by
    intro slot
    rw [invariant.slotsFrom_eq, List.find?_eq_some_iff_append]
    constructor
    · rintro ⟨holds, before, after, split, unequal⟩
      refine ⟨beq_iff_eq.mp holds, fun earlier less live => ?_⟩
      -- An earlier slot with the same edge would stand before this one in the list.
      have member := listed earlier live
      rw [split] at member ascend
      rcases List.mem_append.mp member with inFront | behind
      · simp only [Bool.not_eq_true', beq_eq_false_iff_ne] at unequal
        exact unequal earlier inFront live
      · rcases List.mem_cons.mp behind with rfl | later
        · exact Nat.lt_irrefl earlier less
        · have greater := (List.pairwise_cons.mp (List.pairwise_append.mp ascend).2.1).1
          exact Nat.lt_asymm less (greater earlier later)
    · rintro ⟨live, first⟩
      obtain ⟨before, after, split⟩ := List.append_of_mem (listed slot live)
      refine ⟨beq_iff_eq.mpr live, before, after, split, fun earlier inFront => ?_⟩
      rw [split] at ascend
      have less := (List.pairwise_append.mp ascend).2.2 earlier inFront slot List.mem_cons_self
      simpa using first earlier less
  rw [removeEdge]
  constructor
  · intro removed
    split at removed
    · cases removed
    · next slot holds =>
      cases removed
      obtain ⟨live, first⟩ := (found slot).mp holds
      exact ⟨slot, live, first, rfl⟩
  · rintro ⟨slot, live, first, rfl⟩
    rw [(found slot).mpr ⟨live, first⟩]

/-! ## All that an operation can do -/

/-- What an operation answers and what it makes of a graph.  Operations that change
nothing do so because the key stands for a node already, because they are refused or
because there is nothing to take. -/
inductive Effect (graph : Graph) : Operation → Except GraphError Outcome → Graph → Prop
  | create_standing {kind : NodeKind} {contents : String} {first last : Nat}
      {key : SyntaxKey} {node : Node} (stands : graph.nodeForKey? key = some node) :
      Effect graph (.create kind contents first last key) (.ok (.node node)) graph
  | create_free {kind : NodeKind} {contents : String} {first last : Nat} {key : SyntaxKey}
      (free : graph.nodeForKey? key = none) :
      Effect graph (.create kind contents first last key)
        (.ok (.node (graph.freshNode kind contents first last)))
        ((graph.pushNode (graph.freshNode kind contents first last)).associate key graph.nextId)
  | createDetached {kind : NodeKind} {contents : String} {first last : Nat} :
      Effect graph (.createDetached kind contents first last)
        (.ok (.node (graph.freshNode kind contents first last)))
        (graph.pushNode (graph.freshNode kind contents first last))
  | addEdge {edge : Edge} (source : graph.contains edge.source)
      (target : graph.contains edge.target) :
      Effect graph (.addEdge edge) (.ok (.slot graph.slots.size)) (graph.pushEdge edge)
  | addEdge_refused {edge : Edge} {cause : GraphError} :
      Effect graph (.addEdge edge) (.error cause) graph
  | replaceAssociation {old new : NodeId} {key : SyntaxKey} (target : graph.contains new)
      (only : graph.keys old = [key]) :
      Effect graph (.replaceAssociation old new) (.ok .done) (graph.moveKey key old new)
  | replaceAssociation_refused {old new : NodeId} {cause : GraphError} :
      Effect graph (.replaceAssociation old new) (.error cause) graph
  | removeNode {id : NodeId} {node : Node} (found : graph.node? id = some node) :
      Effect graph (.removeNode id) (.ok (.node node)) (graph.withoutNode id)
  | removeNode_absent {id : NodeId} {cause : GraphError} (absent : ¬graph.contains id) :
      Effect graph (.removeNode id) (.error cause) graph
  | removeEdge {edge : Edge} {slot : Slot} (live : graph.edge? slot = some edge)
      (first : ∀ earlier < slot, graph.edge? earlier ≠ some edge) :
      Effect graph (.removeEdge edge) (.ok .done) (graph.discardSlot slot)
  | removeEdge_absent {edge : Edge} {cause : GraphError}
      (absent : ∀ slot, graph.edge? slot ≠ some edge) :
      Effect graph (.removeEdge edge) (.error cause) graph
  | removeEdgeAt {slot : Slot} {edge : Edge} (live : graph.edge? slot = some edge) :
      Effect graph (.removeEdgeAt slot) (.ok (.edge (some edge))) (graph.discardSlot slot)
  | removeEdgeAt_empty {slot : Slot} (empty : graph.edge? slot = none) :
      Effect graph (.removeEdgeAt slot) (.ok (.edge none)) graph
  | prune {removed : List NodeId} {last : Graph} (removals : LeafRemovals graph removed last)
      (taken : ∀ id, id ∈ graph.prunedIds ↔ id ∈ removed) :
      Effect graph .prune (.ok (.count removed.length)) last

theorem Invariant.effect_run (invariant : graph.Invariant) (operation : Operation) :
    Effect graph operation (operation.run graph).1 (operation.run graph).2 := by
  cases operation with
  | create kind contents first last key =>
      rw [Operation.run, Graph.create]
      cases found : graph.nodeForKey? key with
      | some node => exact .create_standing found
      | none => exact .create_free found
  | createDetached kind contents first last => exact .createDetached
  | addEdge edge =>
      rw [Operation.run]
      split
      · next slot next added =>
        obtain ⟨source, target, rfl, rfl⟩ := addEdge_eq_ok_iff.mp added
        exact .addEdge source target
      · exact .addEdge_refused
  | replaceAssociation old new =>
      rw [Operation.run]
      split
      · next next replaced =>
        obtain ⟨_, target, key, only, rfl⟩ := replaceAssociation_eq_ok_iff.mp replaced
        exact .replaceAssociation target only
      · exact .replaceAssociation_refused
  | removeNode id =>
      rw [Operation.run, Graph.removeNode]
      cases found : graph.node? id with
      | none => exact .removeNode_absent (node?_eq_none_iff.mp found)
      | some node => exact .removeNode found
  | removeEdge edge =>
      rw [Operation.run]
      split
      · next next removed =>
        obtain ⟨slot, live, first, rfl⟩ := invariant.removeEdge_eq_ok_iff.mp removed
        exact .removeEdge live first
      · next cause refused =>
        refine .removeEdge_absent fun slot live => ?_
        have absent := (invariant.removeEdge_eq_error_iff.mp refused).1
        exact absent (mem_edges.mpr ⟨slot, live⟩)
  | removeEdgeAt slot =>
      rw [Operation.run, removeEdgeAt_eq]
      cases live : graph.edge? slot with
      | none => exact .removeEdgeAt_empty live
      | some edge => exact .removeEdgeAt live
  | prune =>
      obtain ⟨removed, removals, counted, _⟩ := prune_removals invariant
      change Effect graph .prune (.ok (.count graph.prune.1)) graph.prune.2
      rw [counted]
      exact .prune removals fun _ => removals.mem_prunedIds

/-! ## What an operation does to a node and to a slot -/

/-- Of equal edges exactly one is the earliest. -/
theorem takesSlot_removeEdge_iff {other : Slot} (live : graph.edge? other = some edge)
    (first : ∀ earlier < other, graph.edge? earlier ≠ some edge) :
    (Operation.removeEdge edge).takesSlot graph slot ↔ slot = other := by
  simp only [Operation.takesSlot, Bool.and_eq_true, beq_iff_eq, List.all_eq_true, List.mem_range,
    bne_iff_ne]
  constructor
  · rintro ⟨holds, earliest⟩
    rcases Nat.lt_trichotomy slot other with less | same | greater
    · exact absurd holds (first slot less)
    · exact same
    · exact absurd live (earliest other greater)
  · rintro rfl
    exact ⟨live, first⟩

variable {operation : Operation} {answer : Except GraphError Outcome} {next : Graph}

namespace Effect

/-- The next id never goes back. -/
theorem nextId_le (effect : Effect graph operation answer next) : graph.nextId ≤ next.nextId := by
  cases effect with
  | create_free => exact Nat.le_succ _
  | createDetached => exact Nat.le_succ _
  | removeNode => rw [nextId_withoutNode]
  | removeEdge => rw [nextId_discardSlot]
  | removeEdgeAt => rw [nextId_discardSlot]
  | prune removals => rw [removals.nextId_eq]
  | _ => exact Nat.le_refl _

/-- Slots are never given up. -/
theorem size_slots_le (effect : Effect graph operation answer next) :
    graph.slots.size ≤ next.slots.size := by
  cases effect with
  | addEdge => simp [pushEdge]
  | removeNode => rw [size_slots_withoutNode]
  | removeEdge => rw [slots_discardSlot, Array.size_setIfInBounds]
  | removeEdgeAt => rw [slots_discardSlot, Array.size_setIfInBounds]
  | prune removals => rw [removals.size_slots]
  | _ => exact Nat.le_refl _

/-- An operation takes a node that was given an id, or leaves it as it is; an id whose node
has gone gets no other. -/
theorem node?_eq (effect : Effect graph operation answer next) (given : id < graph.nextId) :
    next.node? id = if operation.takesNode graph id then none else graph.node? id := by
  have pushed : ∀ node, node.id = graph.nextId →
      (graph.pushNode node).node? id = graph.node? id := by
    intro node next
    have other : node.id ≠ id := next ▸ Nat.ne_of_gt given
    rw [node?_pushNode, if_neg other, Option.or_none]
  cases effect with
  | create_free => exact pushed _ rfl
  | createDetached => exact pushed _ rfl
  | removeNode =>
      rw [node?_withoutNode]
      exact if_congr (by rw [Operation.takesNode, beq_iff_eq, eq_comm]) rfl rfl
  | removeNode_absent absent =>
      rw [Operation.takesNode]
      split
      · next same => rw [← beq_iff_eq.mp same, node?_eq_none_iff.mpr absent]
      · rfl
  | removeEdge => exact node?_discardSlot _ _ _
  | removeEdgeAt => exact node?_discardSlot _ _ _
  | prune removals taken =>
      rw [removals.node?_eq]
      exact if_congr (by rw [Operation.takesNode, List.contains_iff_mem, taken]) rfl rfl
  | _ => rfl

/-- An operation takes the edge out of a slot or leaves it there; an emptied slot stays
empty. -/
theorem edge?_eq (effect : Effect graph operation answer next) (invariant : graph.Invariant)
    (given : slot < graph.slots.size) :
    next.edge? slot = if operation.takesSlot graph slot then none else graph.edge? slot := by
  have filtered : ∀ taken : Edge → Bool,
      (graph.edge? slot).filter (!taken ·) =
        if (graph.edge? slot).any taken then none else graph.edge? slot := by
    intro taken
    cases graph.edge? slot with
    | none => rfl
    | some edge => cases stays : taken edge <;> simp [Option.filter, stays]
  cases effect with
  | addEdge => exact (edge?_pushEdge _ _ _).trans (if_neg (Nat.ne_of_lt given))
  | removeNode found =>
      rw [edge?_withoutNode invariant.toIndexed (contains_of_node? found), filtered]
      rfl
  | @removeNode_absent id _ absent =>
      have untouched : (graph.edge? slot).any (·.touches id) = false := by
        cases live : graph.edge? slot with
        | none => rfl
        | some edge =>
            obtain ⟨source, target⟩ := invariant.not_touches absent live
            simp [Edge.touches, source, target]
      rw [Operation.takesSlot, untouched]
      rfl
  | removeEdge live first =>
      rw [edge?_discardSlot]
      exact if_congr (takesSlot_removeEdge_iff live first).symm rfl rfl
  | removeEdge_absent absent => simp [Operation.takesSlot, absent slot]
  | removeEdgeAt =>
      rw [edge?_discardSlot]
      exact if_congr (by rw [Operation.takesSlot, beq_iff_eq, eq_comm]) rfl rfl
  | removeEdgeAt_empty empty =>
      rw [Operation.takesSlot]
      split
      · next same => rw [← beq_iff_eq.mp same, empty]
      · rfl
  | @prune removed _ removals taken =>
      have sameIds : ∀ edge : Edge,
          graph.prunedIds.any edge.touches = removed.any edge.touches := by
        intro edge
        rw [Bool.eq_iff_iff]
        simp only [List.any_eq_true, taken]
      rw [removals.edge?_eq invariant, filtered, Operation.takesSlot]
      simp only [sameIds]
  | _ => rfl

end Effect

end Graph

end ProgramGraph
