import ProgramGraph.Proofs.Graph.InPlace
import ProgramGraph.Proofs.Graph.KeyMap

/-!
# Refused operations

An operation has a precondition that speaks of the nodes of a graph, of its edges and of
the map of its keys.  `Operation.RefusedFor` says which operations fail their
precondition and for what cause.  The programs that carry operations out decide this
from the indexes and from the lists of keys; in a reachable graph they decide it
rightly, and they decide it before they write.
-/

namespace ProgramGraph

/-- Which operations a graph has to refuse, and for what cause.  Of two ids that are not
in the graph the first one is to blame. -/
def Operation.RefusedFor (graph : Graph) (cause : GraphError) : Operation → Prop
  | addEdge edge =>
      ¬graph.contains edge.source ∧ cause = .unknownNode edge.source ∨
        graph.contains edge.source ∧ ¬graph.contains edge.target ∧
          cause = .unknownNode edge.target
  | replaceAssociation old new =>
      ¬graph.contains old ∧ cause = .unknownNode old ∨
        graph.contains old ∧ ¬graph.contains new ∧ cause = .unknownNode new ∨
        graph.contains old ∧ graph.contains new ∧
          (graph.keyMap.count old = 0 ∧ cause = .nodeNotAssociated old ∨
            2 ≤ graph.keyMap.count old ∧
              cause = .ambiguousAssociation old (graph.keyMap.count old))
  | removeNode id => ¬graph.contains id ∧ cause = .unknownNode id
  | removeEdge edge => edge ∉ graph.edges ∧ cause = .unknownEdge edge
  | create _ _ _ _ _ => False
  | createDetached _ _ _ _ => False
  | removeEdgeAt _ => False
  | prune => False

namespace Graph

variable {graph : Graph} {cause : GraphError}

/-! ## When an operation is refused -/

theorem addEdge_eq_error_iff {source target : NodeId} {kind : EdgeKind} :
    graph.addEdge source target kind = .error cause ↔
      ¬graph.contains source ∧ cause = .unknownNode source ∨
        graph.contains source ∧ ¬graph.contains target ∧ cause = .unknownNode target := by
  by_cases first : graph.contains source
  · by_cases second : graph.contains target
    · rw [addEdge, require_of_contains first, require_of_contains second]
      simp [first, second, bind, Except.bind, pure, Except.pure]
    · rw [addEdge, require_of_contains first, require_of_not_contains second]
      simp [first, second, bind, Except.bind, eq_comm (b := cause)]
  · rw [addEdge, require_of_not_contains first]
    simp [first, bind, Except.bind, eq_comm (b := cause)]

/-- Looking through the slots that leave the source is as good as looking through all
edges. -/
theorem Invariant.removeEdge_eq_error_iff {edge : Edge} (invariant : graph.Invariant) :
    graph.removeEdge edge = .error cause ↔ edge ∉ graph.edges ∧ cause = .unknownEdge edge := by
  have notFound : (graph.slotsFrom edge.source).find? (graph.edge? · == some edge) = none ↔
      edge ∉ graph.edges := by
    rw [invariant.slotsFrom_eq, List.find?_eq_none, mem_edges]
    constructor
    · rintro unequal ⟨slot, live⟩
      have listed : slot ∈ graph.slotsWhere (·.source == edge.source) :=
        mem_slotsWhere.mpr ⟨edge, live, beq_self_eq_true edge.source⟩
      exact unequal slot listed (beq_iff_eq.mpr live)
    · intro gone slot _ equal
      exact gone ⟨slot, beq_iff_eq.mp equal⟩
  rw [← notFound, removeEdge]
  cases (graph.slotsFrom edge.source).find? (graph.edge? · == some edge) with
  | none => simp [eq_comm]
  | some slot => simp

theorem Keyed.replaceAssociation_eq_error_iff {old new : NodeId} (keyed : graph.Keyed) :
    graph.replaceAssociation old new = .error cause ↔
      (Operation.replaceAssociation old new).RefusedFor graph cause := by
  rw [Operation.RefusedFor]
  by_cases oldPresent : graph.contains old
  · by_cases newPresent : graph.contains new
    · rw [replaceAssociation_of_contains oldPresent newPresent, keyed.count_keyMap]
      match graph.keys old with
      | [] => simp [oldPresent, newPresent, eq_comm (b := cause)]
      | [key] => simp [oldPresent, newPresent]
      | _ :: _ :: _ => simp [oldPresent, newPresent, eq_comm (b := cause)]
    · rw [replaceAssociation, require_of_contains oldPresent,
        require_of_not_contains newPresent]
      simp [oldPresent, newPresent, bind, Except.bind, eq_comm (b := cause)]
  · rw [replaceAssociation, require_of_not_contains oldPresent]
    simp [oldPresent, bind, Except.bind, eq_comm (b := cause)]

/-- An operation is refused just when its precondition does not hold. -/
theorem Invariant.run_eq_error_iff (invariant : graph.Invariant) (operation : Operation) :
    (operation.run graph).1 = .error cause ↔ operation.RefusedFor graph cause := by
  cases operation with
  | create kind contents first last key => simp [Operation.run, Operation.RefusedFor]
  | createDetached kind contents first last => simp [Operation.run, Operation.RefusedFor]
  | addEdge edge =>
      rw [Operation.RefusedFor, ← addEdge_eq_error_iff, Operation.run]
      cases graph.addEdge edge.source edge.target edge.kind <;> simp
  | replaceAssociation old new =>
      rw [← invariant.toKeyed.replaceAssociation_eq_error_iff, Operation.run]
      cases graph.replaceAssociation old new <;> simp
  | removeNode id =>
      rw [Operation.RefusedFor, ← removeNode_eq_error_iff, Operation.run]
      cases graph.removeNode id <;> simp
  | removeEdge edge =>
      rw [Operation.RefusedFor, ← invariant.removeEdge_eq_error_iff, Operation.run]
      cases graph.removeEdge edge <;> simp
  | removeEdgeAt slot =>
      rw [Operation.run]
      cases graph.removeEdgeAt slot <;> simp [Operation.RefusedFor]
  | prune => simp [Operation.run, Operation.RefusedFor]

theorem run_of_error (operation : Operation) (refused : (operation.run graph).1 = .error cause) :
    (operation.run graph).2 = graph := by
  cases operation with
  | create kind contents first last key => cases refused
  | createDetached kind contents first last => cases refused
  | addEdge edge =>
      rw [Operation.run] at refused ⊢
      cases added : graph.addEdge edge.source edge.target edge.kind <;> simp_all
  | replaceAssociation old new =>
      rw [Operation.run] at refused ⊢
      cases replaced : graph.replaceAssociation old new <;> simp_all
  | removeNode id =>
      rw [Operation.run] at refused ⊢
      cases removed : graph.removeNode id <;> simp_all
  | removeEdge edge =>
      rw [Operation.run] at refused ⊢
      cases removed : graph.removeEdge edge <;> simp_all
  | removeEdgeAt slot =>
      rw [Operation.run] at refused ⊢
      cases removed : graph.removeEdgeAt slot <;> simp_all
  | prune => cases refused

theorem discardSlot_of_empty {slot : Slot} (empty : graph.edge? slot = none) :
    graph.discardSlot slot = graph := by
  simp [discardSlot, removeEdgeAt, empty]

theorem edge?_eq_none_iff {slot : Slot} :
    graph.edge? slot = none ↔ graph.slots.size ≤ slot ∨ graph.slots[slot]? = some none := by
  rw [edge?, ← Array.getElem?_eq_none_iff]
  cases graph.slots[slot]? <;> simp

/-! ## Refusals in place -/

/-- Operations that are carried out in place are refused when they have to be, and then
every part of the graph is what it was. -/
structure RefusesCleanly (graph : Graph) : Prop where
  error_iff : ∀ (operation : Operation) (cause : GraphError),
    (operation.inPlace.on graph).1 = .error cause ↔ operation.RefusedFor graph cause
  unchanged : ∀ (operation : Operation) (cause : GraphError),
    (operation.inPlace.on graph).1 = .error cause → (operation.inPlace.on graph).2 = graph
  /-- A slot yields nothing if it lies behind all slots or has been emptied. -/
  removeEdgeAt_none_iff : ∀ slot, ((InPlace.removeEdgeAt slot).on graph).1 = .ok none ↔
    graph.slots.size ≤ slot ∨ graph.slots[slot]? = some none
  removeEdgeAt_unchanged : ∀ slot, ((InPlace.removeEdgeAt slot).on graph).1 = .ok none →
    ((InPlace.removeEdgeAt slot).on graph).2 = graph

/-- No request that fails leaves a trace, and none fails but for its precondition. -/
theorem refusesCleanly_of_reachable (reachable : graph.Reachable) : graph.RefusesCleanly where
  error_iff operation cause := by
    rw [InPlace.on_inPlace]
    exact reachable.invariant.run_eq_error_iff operation
  unchanged operation cause refused := by
    rw [InPlace.on_inPlace] at refused ⊢
    exact run_of_error operation refused
  removeEdgeAt_none_iff slot := by
    rw [InPlace.on_removeEdgeAt, ← edge?_eq_none_iff]
    simp
  removeEdgeAt_unchanged slot nothing := by
    rw [InPlace.on_removeEdgeAt] at nothing ⊢
    exact discardSlot_of_empty (Except.ok.inj nothing)

/-- A parallel edge of another kind, a node that has gone and an emptied slot are refused
or yield nothing. -/
theorem refusesCleanly_sample :
    sample.Reachable ∧
      (Operation.removeEdge ⟨1, 2, .lastWrite⟩).RefusedFor sample
        (.unknownEdge ⟨1, 2, .lastWrite⟩) ∧
      (Operation.addEdge ⟨3, 7, .astChild⟩).RefusedFor sample (.unknownNode 3) ∧
      sample.slots[1]? = some none ∧ sample.RefusesCleanly :=
  ⟨reachable_sample, ⟨by decide, rfl⟩, .inl ⟨by decide, rfl⟩, by decide,
    refusesCleanly_of_reachable reachable_sample⟩

end Graph

end ProgramGraph
