import ProgramGraph.Graph.InPlace

/-!
# What operations do in place

Each program of `InPlace` answers what the operation of the same name answers and
leaves the graph that this operation makes; when it refuses, it has written nothing
yet.  `on_inPlace` says this of all operations at once.  Nothing has to be known of the
graph for it.
-/

namespace ProgramGraph.InPlace

open Attempt

variable {α : Type} {graph : Graph}

/-- An answer with the graph that was made, or a refusal with the graph as it was. -/
def settled (graph : Graph) : Except GraphError (α × Graph) → Except GraphError α × Graph
  | .ok (answer, next) => (.ok answer, next)
  | .error cause => (.error cause, graph)

/-! ## Construction -/

@[simp]
theorem on_require (id : NodeId) (graph : Graph) :
    (require id).on graph = (graph.require id, graph) := by
  rw [require, on_get_bind, Graph.require]
  by_cases present : graph.contains id <;> simp [present]

@[simp]
theorem on_createDetached (kind : NodeKind) (contents : String) (first last : Nat)
    (graph : Graph) :
    (createDetached kind contents first last).on graph =
      (.ok (graph.createDetached kind contents first last).1,
        (graph.createDetached kind contents first last).2) :=
  rfl

@[simp]
theorem on_associate (key : SyntaxKey) (id : NodeId) (graph : Graph) :
    (associate key id).on graph = (.ok (), graph.associate key id) :=
  rfl

theorem on_create (kind : NodeKind) (contents : String) (first last : Nat) (key : SyntaxKey)
    (graph : Graph) :
    (create kind contents first last key).on graph =
      (.ok (graph.create kind contents first last key).1,
        (graph.create kind contents first last key).2) := by
  rw [create, on_get_bind, Graph.create]
  cases graph.nodeForKey? key with
  | some node => rfl
  | none => rfl

theorem on_addEdge (edge : Edge) (graph : Graph) :
    (addEdge edge).on graph = settled graph (graph.addEdge edge.source edge.target edge.kind) := by
  rw [addEdge, Graph.addEdge, on_bind, on_require]
  cases graph.require edge.source with
  | error cause => rfl
  | ok _ =>
      simp only [on_bind, on_require]
      cases graph.require edge.target with
      | error cause => rfl
      | ok _ => rfl

theorem on_replaceAssociation (old new : NodeId) (graph : Graph) :
    (replaceAssociation old new).on graph =
      settled graph ((graph.replaceAssociation old new).map ((), ·)) := by
  rw [replaceAssociation, Graph.replaceAssociation, on_bind, on_require]
  cases graph.require old with
  | error cause => rfl
  | ok _ =>
      simp only [on_bind, on_require, on_get]
      cases graph.require new with
      | error cause => rfl
      | ok _ =>
          dsimp only
          cases graph.keys old with
          | nil => rfl
          | cons key others => cases others <;> rfl

/-! ## Removal -/

@[simp]
theorem on_removeEdgeAt (slot : Slot) (graph : Graph) :
    (removeEdgeAt slot).on graph = (.ok (graph.edge? slot), graph.discardSlot slot) := by
  rw [removeEdgeAt, on_get_bind, Graph.discardSlot, Graph.removeEdgeAt]
  cases graph.edge? slot with
  | none => rfl
  | some edge => rfl

@[simp]
theorem on_discardSlots (slots : List Slot) (graph : Graph) :
    (discardSlots slots).on graph = (.ok (), graph.discardSlots slots) := by
  induction slots generalizing graph with
  | nil => rfl
  | cons slot rest ih => simp only [discardSlots, on_bind, on_removeEdgeAt, ih,
      Graph.discardSlots_cons]

@[simp]
theorem on_discardKeys (keys : List SyntaxKey) (graph : Graph) :
    (discardKeys keys).on graph =
      (.ok (), { graph with associations := keys.foldl Table.erase graph.associations }) := by
  induction keys generalizing graph with
  | nil => rfl
  | cons key rest ih => simp only [discardKeys, on_bind, on_modify, ih, List.foldl_cons]

theorem on_removeEdge (edge : Edge) (graph : Graph) :
    (removeEdge edge).on graph = settled graph ((graph.removeEdge edge).map ((), ·)) := by
  rw [removeEdge, on_get_bind, Graph.removeEdge]
  cases (graph.slotsFrom edge.source).find? (graph.edge? · == some edge) with
  | none => rfl
  | some slot =>
      simp only [on_bind, on_removeEdgeAt]
      rfl

theorem on_removeNode (id : NodeId) (graph : Graph) :
    (removeNode id).on graph = settled graph (graph.removeNode id) := by
  rw [removeNode, on_get_bind, Graph.removeNode]
  cases graph.node? id with
  | none => rfl
  | some node =>
      simp only [on_bind, on_modify, on_get, on_discardSlots, on_discardKeys]
      rfl

/-! ## Pruning -/

theorem on_pruneNodes (ids : List NodeId) (count : Nat) (graph : Graph) :
    (pruneNodes count ids).on graph =
      (.ok (ids.foldl Graph.pruneNode (count, graph)).1,
        (ids.foldl Graph.pruneNode (count, graph)).2) := by
  induction ids generalizing count graph with
  | nil => rfl
  | cons id rest ih =>
      simp only [pruneNodes, on_bind, on_tryCatch, on_removeNode, List.foldl_cons,
        Graph.pruneNode]
      cases graph.removeNode id with
      | error cause => simp [settled, ih]
      | ok answer => simp [settled, ih]

theorem on_pruneRounds (rounds count : Nat) (graph : Graph) :
    (pruneRounds rounds count).on graph =
      (.ok (Graph.pruneRounds rounds (count, graph)).1,
        (Graph.pruneRounds rounds (count, graph)).2) := by
  induction rounds generalizing count graph with
  | zero => rfl
  | succ rounds ih =>
      rw [pruneRounds, on_get_bind, Graph.pruneRounds_succ]
      cases graph.prunableLeaves with
      | nil => rfl
      | cons id rest => simp only [on_bind, on_pruneNodes, ih]

/-- In place an operation answers and leaves behind what it does by itself. -/
theorem on_inPlace (operation : Operation) (graph : Graph) :
    operation.inPlace.on graph = operation.run graph := by
  cases operation with
  | create kind contents first last key =>
      rw [Operation.inPlace, on_map, on_create]
      rfl
  | createDetached kind contents first last => rfl
  | addEdge edge =>
      rw [Operation.inPlace, on_map, on_addEdge, Operation.run]
      cases graph.addEdge edge.source edge.target edge.kind <;> rfl
  | replaceAssociation old new =>
      rw [Operation.inPlace, on_map, on_replaceAssociation, Operation.run]
      cases graph.replaceAssociation old new <;> rfl
  | removeNode id =>
      rw [Operation.inPlace, on_map, on_removeNode, Operation.run]
      cases graph.removeNode id <;> rfl
  | removeEdge edge =>
      rw [Operation.inPlace, on_map, on_removeEdge, Operation.run]
      cases graph.removeEdge edge <;> rfl
  | removeEdgeAt slot =>
      rw [Operation.inPlace, on_map, on_removeEdgeAt, Operation.run, Graph.discardSlot]
      cases removed : graph.removeEdgeAt slot with
      | none =>
          rw [Graph.removeEdgeAt_eq, Option.map_eq_none_iff] at removed
          rw [removed]
          rfl
      | some answer =>
          rw [Graph.removeEdgeAt_eq, Option.map_eq_some_iff] at removed
          obtain ⟨edge, live, rfl⟩ := removed
          rw [live]
          rfl
  | prune =>
      rw [Operation.inPlace, on_map, prune, on_get_bind]
      rw [on_pruneRounds]
      rfl

end ProgramGraph.InPlace
