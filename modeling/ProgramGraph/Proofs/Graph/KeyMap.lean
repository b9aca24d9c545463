import Mathlib.Data.Set.Card
import ProgramGraph.Proofs.Graph.Reachable

/-!
# The map of syntax keys

All that a graph knows about syntax keys is one partial map from keys to nodes.
`KeyMap.after` says what each operation does to such a map without a look at the
tables of the graph: a creation assigns a free key, a replacement redirects the one
key of a node, a removal forgets the keys of the node, and nothing else changes it.
`KeyMap.Governs` says what the map has to do with the answers of a graph.

A map that governs a graph and follows its history by `KeyMap.after` governs every
graph on the way.
-/

namespace ProgramGraph

/-- The node that each syntax key stands for, if it stands for one. -/
abbrev KeyMap := SyntaxKey → Option NodeId

namespace Graph

/-- The map of a graph. -/
def keyMap (graph : Graph) : KeyMap :=
  graph.associations.get?

/-- The ids of the nodes that pruning takes out of a graph. -/
def prunedIds (graph : Graph) : List NodeId :=
  (graph.nodes.map (·.id)).filter fun id => !graph.prune.2.contains id

end Graph

namespace KeyMap

/-- Let a key stand for a node. -/
def assign (keys : KeyMap) (key : SyntaxKey) (id : NodeId) : KeyMap :=
  fun asked => if asked = key then some id else keys asked

/-- Let everything that stands for `old` stand for `new`. -/
def redirect (keys : KeyMap) (old new : NodeId) : KeyMap :=
  fun asked => if keys asked = some old then some new else keys asked

/-- Let nothing stand for a node. -/
def forget (keys : KeyMap) (id : NodeId) : KeyMap :=
  fun asked => if keys asked = some id then none else keys asked

/-- How many keys stand for a node. -/
noncomputable def count (keys : KeyMap) (id : NodeId) : Nat :=
  {key | keys key = some id}.ncard

/-- The map after an operation on a graph. -/
noncomputable def after (keys : KeyMap) (graph : Graph) : Operation → KeyMap
  | .create _ _ _ _ key =>
      if keys key = none then keys.assign key graph.nextId else keys
  | .createDetached _ _ _ _ => keys
  | .addEdge _ => keys
  | .replaceAssociation old new =>
      if graph.contains old ∧ graph.contains new ∧ keys.count old = 1 then
        keys.redirect old new
      else
        keys
  | .removeNode id => keys.forget id
  | .removeEdge _ => keys
  | .removeEdgeAt _ => keys
  | .prune => graph.prunedIds.foldl forget keys

/-- The map after a history. -/
noncomputable def afterAll (keys : KeyMap) (graph : Graph) : List Operation → KeyMap
  | [] => keys
  | operation :: rest => (keys.after graph operation).afterAll (operation.run graph).2 rest

theorem foldl_forget_apply (gone : List NodeId) (keys : KeyMap) (key : SyntaxKey) :
    gone.foldl forget keys key = (keys key).filter (· ∉ gone) := by
  induction gone generalizing keys with
  | nil => cases stored : keys key <;> simp [stored, Option.filter]
  | cons id rest ih =>
      rw [List.foldl_cons, ih, forget]
      cases stored : keys key with
      | none => simp
      | some other =>
          by_cases here : other = id
          · simp [here, Option.filter]
          · simp [here, Option.filter]

end KeyMap

namespace Graph

variable {graph : Graph} {id : NodeId} {key : SyntaxKey}

/-! ## The map and the tables -/

theorem Keyed.setOf_keyMap (keyed : graph.Keyed) (id : NodeId) :
    {key | graph.keyMap key = some id} = ((graph.keys id).toFinset : Set SyntaxKey) := by
  ext key
  simp [keyMap, keyed.mem_keys]

theorem Keyed.count_keyMap (keyed : graph.Keyed) (id : NodeId) :
    graph.keyMap.count id = (graph.keys id).length := by
  rw [KeyMap.count, keyed.setOf_keyMap, Set.ncard_coe_finset,
    List.toFinset_card_of_nodup (keyed.nodup_keys id)]

theorem Keyed.keyMap_moveKey {old new : NodeId} (keyed : graph.Keyed)
    (only : graph.keys old = [key]) :
    (graph.moveKey key old new).keyMap = graph.keyMap.redirect old new := by
  funext asked
  have stands : graph.keyMap asked = some old ↔ key = asked := by
    rw [keyMap, ← keyed.mem_keys, only, List.mem_singleton]
    exact eq_comm
  rw [keyMap, get?_associations_moveKey, KeyMap.redirect]
  simp only [stands]
  rfl

theorem Keyed.keyMap_withoutNode (keyed : graph.Keyed) (id : NodeId) :
    (graph.withoutNode id).keyMap = graph.keyMap.forget id := by
  funext asked
  rw [keyMap, get?_associations_withoutNode, KeyMap.forget]
  simp only [keyed.mem_keys]
  rfl

theorem keyMap_discardSlot (graph : Graph) (slot : Slot) :
    (graph.discardSlot slot).keyMap = graph.keyMap := by
  obtain ⟨_, _, _, _, frame⟩ := graph.discardSlot_frame slot
  rw [frame]
  rfl

theorem forget_absent (keyed : graph.Keyed) (absent : ¬graph.contains id) :
    graph.keyMap.forget id = graph.keyMap := by
  funext asked
  apply if_neg
  intro stands
  exact absent (keyed.associated_mem asked id stands)

/-! ## Pruning forgets node by node -/

namespace LeafRemovals

variable {last : Graph} {removed : List NodeId}

theorem keyMap_eq (removals : LeafRemovals graph removed last) (invariant : graph.Invariant) :
    last.keyMap = removed.foldl KeyMap.forget graph.keyMap := by
  induction removals with
  | nil graph => rfl
  | cons leaf _ ih =>
      rw [ih (invariant.withoutNode (contains_of_mem_prunableLeaves leaf)),
        invariant.toKeyed.keyMap_withoutNode, List.foldl_cons]

theorem contains_iff (removals : LeafRemovals graph removed last) (id : NodeId) :
    last.contains id ↔ graph.contains id ∧ id ∉ removed := by
  induction removals with
  | nil graph => simp
  | cons leaf _ ih =>
      rw [ih, contains_withoutNode, List.mem_cons]
      tauto

theorem contains_of_mem (removals : LeafRemovals graph removed last) (member : id ∈ removed) :
    graph.contains id := by
  induction removals with
  | nil graph => cases member
  | cons leaf _ ih =>
      rcases List.mem_cons.mp member with rfl | later
      · exact contains_of_mem_prunableLeaves leaf
      · exact ((contains_withoutNode _ _ _).mp (ih later)).1

/-- The nodes that pruning takes are those of its removals. -/
theorem mem_prunedIds (removals : LeafRemovals graph removed graph.prune.2) :
    id ∈ graph.prunedIds ↔ id ∈ removed := by
  have left := removals.contains_iff id
  simp only [prunedIds, List.mem_filter, Bool.not_eq_true', Bool.eq_false_iff, ne_eq, left,
    not_and, not_not]
  constructor
  · rintro ⟨listed, taken⟩
    exact taken (Graph.contains_iff.mpr (List.mem_map.mp listed))
  · intro member
    have present := removals.contains_of_mem member
    exact ⟨List.mem_map.mpr (Graph.contains_iff.mp present), fun _ => member⟩

theorem foldl_forget_prunedIds (removals : LeafRemovals graph removed graph.prune.2) :
    graph.prunedIds.foldl KeyMap.forget graph.keyMap =
      removed.foldl KeyMap.forget graph.keyMap := by
  funext asked
  rw [KeyMap.foldl_forget_apply, KeyMap.foldl_forget_apply]
  simp only [removals.mem_prunedIds]

end LeafRemovals

/-! ## The map follows the operations -/

theorem Keyed.create_of_free (keyed : graph.Keyed) (kind : NodeKind) (contents : String)
    (first last : Nat) (free : graph.keyMap key = none) :
    graph.create kind contents first last key =
      (graph.freshNode kind contents first last,
        (graph.pushNode (graph.freshNode kind contents first last)).associate key
          graph.nextId) := by
  rw [create, keyed.nodeForKey?_eq_none_iff.mpr free]
  rfl

theorem Keyed.create_of_standing (keyed : graph.Keyed) (kind : NodeKind) (contents : String)
    (first last : Nat) (stands : graph.keyMap key = some id) :
    ∃ node, graph.node? id = some node ∧
      graph.create kind contents first last key = (node, graph) := by
  cases found : graph.node? id with
  | none =>
      exact absurd (keyed.associated_mem key id stands) (node?_eq_none_iff.mp found)
  | some node =>
      refine ⟨node, rfl, ?_⟩
      have answer : graph.nodeForKey? key = some node := by
        change graph.associations.get? key = some id at stands
        rw [nodeForKey?, stands, Option.bind_some, found]
      rw [create, answer]

/-- A created key stands for the node with the next id. -/
theorem keyMap_pushNode_associate (graph : Graph) (node : Node) (key : SyntaxKey)
    (id : NodeId) :
    ((graph.pushNode node).associate key id).keyMap = graph.keyMap.assign key id := by
  funext asked
  rw [keyMap, get?_associations_associate, KeyMap.assign]
  simp only [eq_comm]
  rfl

/-- A creation gives a free key to the new node. -/
theorem Keyed.keyMap_create (keyed : graph.Keyed) (kind : NodeKind) (contents : String)
    (first last : Nat) (key : SyntaxKey) :
    (graph.create kind contents first last key).2.keyMap =
      if graph.keyMap key = none then graph.keyMap.assign key graph.nextId else graph.keyMap := by
  cases stored : graph.keyMap key with
  | none =>
      rw [keyed.create_of_free kind contents first last stored, if_pos rfl]
      exact keyMap_pushNode_associate graph _ key _
  | some id =>
      obtain ⟨node, _, created⟩ := keyed.create_of_standing kind contents first last stored
      rw [created, if_neg (Option.some_ne_none id)]

/-- A replacement is accepted when exactly one key stands for the old node. -/
theorem Keyed.exists_replaceAssociation_iff {old new : NodeId} (keyed : graph.Keyed) :
    (∃ next, graph.replaceAssociation old new = .ok next) ↔
      graph.contains old ∧ graph.contains new ∧ graph.keyMap.count old = 1 := by
  rw [keyed.count_keyMap, List.length_eq_one_iff]
  constructor
  · rintro ⟨next, replaced⟩
    obtain ⟨oldPresent, newPresent, key, only, _⟩ := replaceAssociation_eq_ok_iff.mp replaced
    exact ⟨oldPresent, newPresent, key, only⟩
  · rintro ⟨oldPresent, newPresent, key, only⟩
    exact ⟨_, replaceAssociation_eq_ok_iff.mpr ⟨oldPresent, newPresent, key, only, rfl⟩⟩

theorem Keyed.keyMap_replaceAssociation {old new : NodeId} {next : Graph} (keyed : graph.Keyed)
    (replaced : graph.replaceAssociation old new = .ok next) :
    next.keyMap = graph.keyMap.redirect old new := by
  obtain ⟨_, _, key, only, rfl⟩ := replaceAssociation_eq_ok_iff.mp replaced
  exact keyed.keyMap_moveKey only

theorem Keyed.keyMap_removeNode {node : Node} {rest : Graph} (keyed : graph.Keyed)
    (removed : graph.removeNode id = .ok (node, rest)) :
    rest.keyMap = graph.keyMap.forget id := by
  obtain ⟨_, rfl⟩ := removeNode_eq_ok_iff.mp removed
  exact keyed.keyMap_withoutNode id

/-- The map of a graph follows every operation. -/
theorem Invariant.keyMap_run (invariant : graph.Invariant) (operation : Operation) :
    (operation.run graph).2.keyMap = graph.keyMap.after graph operation := by
  have keyed := invariant.toKeyed
  cases operation with
  | create kind contents first last key =>
      exact keyed.keyMap_create kind contents first last key
  | createDetached kind contents first last => rfl
  | addEdge edge =>
      simp only [Operation.run, KeyMap.after]
      split
      · next slot next added =>
        obtain ⟨_, _, _, rfl⟩ := addEdge_eq_ok_iff.mp added
        rfl
      · rfl
  | replaceAssociation old new =>
      simp only [Operation.run, KeyMap.after]
      split
      · next next replaced =>
        rw [if_pos (keyed.exists_replaceAssociation_iff.mp ⟨next, replaced⟩)]
        exact keyed.keyMap_replaceAssociation replaced
      · next cause refused =>
        rw [if_neg]
        intro accepted
        obtain ⟨next, replaced⟩ := keyed.exists_replaceAssociation_iff.mpr accepted
        cases refused.symm.trans replaced
  | removeNode id =>
      simp only [Operation.run, KeyMap.after]
      split
      · next node rest removed => exact keyed.keyMap_removeNode removed
      · next cause refused =>
        exact (forget_absent keyed (removeNode_eq_error_iff.mp refused).1).symm
  | removeEdge edge =>
      simp only [Operation.run, KeyMap.after]
      split
      · next next removed =>
        obtain ⟨slot, _, rfl⟩ := exists_slot_of_removeEdge removed
        exact keyMap_discardSlot graph slot
      · rfl
  | removeEdgeAt slot =>
      simp only [Operation.run, KeyMap.after, removeEdgeAt_eq]
      cases graph.edge? slot with
      | none => rfl
      | some edge => exact keyMap_discardSlot graph slot
  | prune =>
      obtain ⟨removed, removals, _, _⟩ := prune_removals invariant
      simp only [Operation.run, KeyMap.after]
      rw [removals.foldl_forget_prunedIds]
      exact removals.keyMap_eq invariant

theorem Reachable.keyMap_runAll (reachable : graph.Reachable) (history : List Operation) :
    (Operation.runAll graph history).keyMap = graph.keyMap.afterAll graph history := by
  induction history generalizing graph with
  | nil => rfl
  | cons operation rest ih =>
      rw [Operation.runAll_cons, ih (.run operation reachable), KeyMap.afterAll,
        reachable.invariant.keyMap_run]

end Graph

/-! ## The map and the answers -/

/-- The map tells what a graph answers to requests about keys. -/
structure KeyMap.Governs (keys : KeyMap) (graph : Graph) : Prop where
  /-- Keys stand for nodes of the graph only, finitely many for each. -/
  contains_of_stands : ∀ key id, keys key = some id → graph.contains id
  finite_stands : ∀ id, {key | keys key = some id}.Finite
  nodeForKey?_eq : ∀ key, graph.nodeForKey? key = (keys key).bind graph.node?
  /-- Creating for a key that stands for a node gives this node and changes nothing. -/
  create_standing : ∀ kind contents first last key id, keys key = some id →
    ∃ node, graph.node? id = some node ∧
      graph.create kind contents first last key = (node, graph)
  /-- Creating for a free key gives a new node, for which the key stands from now on. -/
  create_free : ∀ kind contents first last key, keys key = none →
    ∃ next, graph.create kind contents first last key =
        (graph.freshNode kind contents first last, next) ∧
      ¬graph.contains graph.nextId ∧
      next.nodes = graph.nodes ++ [graph.freshNode kind contents first last] ∧
      next.slots = graph.slots ∧ next.keyMap = keys.assign key graph.nextId
  replaceAssociation_none : ∀ old new, graph.contains old → graph.contains new →
    keys.count old = 0 → graph.replaceAssociation old new = .error (.nodeNotAssociated old)
  replaceAssociation_many : ∀ old new, graph.contains old → graph.contains new →
    2 ≤ keys.count old →
      graph.replaceAssociation old new = .error (.ambiguousAssociation old (keys.count old))
  /-- The one key of a node is redirected; nodes and edges stay as they are. -/
  replaceAssociation_one : ∀ old new, graph.contains old → graph.contains new →
    keys.count old = 1 →
      ∃ next, graph.replaceAssociation old new = .ok next ∧ next.nodes = graph.nodes ∧
        next.slots = graph.slots ∧ next.keyMap = keys.redirect old new
  /-- No operation changes the map in any other way. -/
  keyMap_run : ∀ operation, (operation.run graph).2.keyMap = keys.after graph operation
  keyMap_removeNode : ∀ id node rest, graph.removeNode id = .ok (node, rest) →
    rest.keyMap = keys.forget id
  /-- Pruning forgets the keys of one node after the other. -/
  keyMap_prune : ∃ removed, graph.LeafRemovals removed graph.prune.2 ∧
    graph.prune.1 = removed.length ∧ graph.prune.2.keyMap = removed.foldl KeyMap.forget keys
  /-- A key that has moved outlives the node that it left. -/
  keyMap_removeNode_old : ∀ old new next node rest, old ≠ new →
    graph.replaceAssociation old new = .ok next → next.removeNode old = .ok (node, rest) →
      ∀ key, keys key = some old → rest.keyMap key = some new
  /-- With a node go its own keys and those that have moved to it. -/
  keyMap_removeNode_new : ∀ old new next node rest,
    graph.replaceAssociation old new = .ok next → next.removeNode new = .ok (node, rest) →
      ∀ key, keys key = some old ∨ keys key = some new → rest.keyMap key = none

namespace Graph

variable {graph : Graph}

theorem Invariant.keyMap_governs (invariant : graph.Invariant) :
    graph.keyMap.Governs graph := by
  have keyed := invariant.toKeyed
  constructor
  case contains_of_stands => exact keyed.associated_mem
  case finite_stands =>
    intro id
    rw [keyed.setOf_keyMap]
    exact Finset.finite_toSet _
  case nodeForKey?_eq => exact fun key => rfl
  case create_standing =>
    intro kind contents first last key id stands
    exact keyed.create_of_standing kind contents first last stands
  case create_free =>
    intro kind contents first last key free
    exact ⟨_, keyed.create_of_free kind contents first last free, invariant.contains_nextId,
      rfl, rfl, keyMap_pushNode_associate graph _ key _⟩
  case replaceAssociation_none =>
    intro old new oldPresent newPresent none
    rw [keyed.count_keyMap] at none
    rw [replaceAssociation_of_contains oldPresent newPresent, List.length_eq_zero_iff.mp none]
  case replaceAssociation_many =>
    intro old new oldPresent newPresent many
    rw [keyed.count_keyMap] at many ⊢
    rw [replaceAssociation_of_contains oldPresent newPresent]
    match graph.keys old, many with
    | _ :: _ :: _, _ => rfl
  case replaceAssociation_one =>
    intro old new oldPresent newPresent one
    obtain ⟨next, replaced⟩ :=
      keyed.exists_replaceAssociation_iff.mpr ⟨oldPresent, newPresent, one⟩
    refine ⟨next, replaced, ?_, ?_, keyed.keyMap_replaceAssociation replaced⟩
    all_goals
      obtain ⟨_, _, _, _, rfl⟩ := replaceAssociation_eq_ok_iff.mp replaced
      rfl
  case keyMap_run => exact invariant.keyMap_run
  case keyMap_removeNode => exact fun id node rest removed => keyed.keyMap_removeNode removed
  case keyMap_prune =>
    obtain ⟨removed, removals, counted, _⟩ := prune_removals invariant
    exact ⟨removed, removals, counted, removals.keyMap_eq invariant⟩
  case keyMap_removeNode_old =>
    intro old new next node rest different replaced removed key stands
    have nextKeyed := (invariant.replaceAssociation replaced).toKeyed
    rw [nextKeyed.keyMap_removeNode removed, keyed.keyMap_replaceAssociation replaced]
    simp [KeyMap.forget, KeyMap.redirect, stands, Ne.symm different]
  case keyMap_removeNode_new =>
    intro old new next node rest replaced removed key stood
    have nextKeyed := (invariant.replaceAssociation replaced).toKeyed
    rw [nextKeyed.keyMap_removeNode removed, keyed.keyMap_replaceAssociation replaced]
    rcases stood with stands | stands <;> simp [KeyMap.forget, KeyMap.redirect, stands]

/-- Along every history one map, which follows the operations, tells the answers. -/
theorem keyMap_governs_history (reachable : graph.Reachable) (history : List Operation) :
    (graph.keyMap.afterAll graph history).Governs (Operation.runAll graph history) := by
  rw [← reachable.keyMap_runAll history]
  exact (reachable.runAll history).invariant.keyMap_governs

/-- The key that has moved to node two outlives the node it left and goes with node
two; after that it is free again. -/
theorem keyMap_governs_sample :
    sample.Reachable ∧ sample.keyMap 11 = some 2 ∧
      (Operation.runAll sample [.removeNode 1]).keyMap 11 = some 2 ∧
      (Operation.runAll sample [.removeNode 1, .removeNode 2]).keyMap 11 = none ∧
      (sample.keyMap.afterAll sample [.removeNode 1, .removeNode 2]).Governs
        (Operation.runAll sample [.removeNode 1, .removeNode 2]) :=
  ⟨reachable_sample, by decide, by decide, by decide,
    keyMap_governs_history reachable_sample _⟩

end Graph

end ProgramGraph
