import ProgramGraph.Proofs.Graph.Steps

/-!
# Identity along a history

An id and a slot keep their meaning for the life of a graph.  New nodes get ever greater
ids, so an id is never given out twice, and new edges get the slots one after the other.
What an id or a slot leads to stays the same until an operation takes it, and after that
the id or the slot leads to nothing, whatever else happens.

Most statements are about two states of one history: the one after its operations
`earlier`, and the one after the operations `later` that come then.
-/

namespace ProgramGraph

/-! ## What a history shows -/

/-- The node that an answer tells of, unless it was in the graph before. -/
def Graph.newNode? (graph : Graph) : Except GraphError Outcome → Option Node
  | .ok (.node node) => if graph.contains node.id then none else some node
  | _ => none

/-- The slot that an answer tells of. -/
def Graph.newSlot? : Except GraphError Outcome → Option Slot
  | .ok (.slot slot) => some slot
  | _ => none

namespace Operation

/-- The node that an operation creates. -/
def created? (graph : Graph) (operation : Operation) : Option Node :=
  graph.newNode? (operation.run graph).1

/-- The slot into which an operation puts an edge. -/
def added? (graph : Graph) (operation : Operation) : Option Slot :=
  Graph.newSlot? (operation.run graph).1

/-- Whether an operation asks for a node that is not there yet. -/
def asksForNew (graph : Graph) : Operation → Bool
  | create _ _ _ _ key => (graph.nodeForKey? key).isNone
  | createDetached .. => true
  | _ => false

end Operation

namespace Graph

/-- What the operations of a history show one after the other. -/
def shown {α : Type} (view : Graph → Operation → Option α) : Graph → List Operation → List α
  | _, [] => []
  | graph, operation :: rest =>
      (view graph operation).toList ++ shown view (operation.run graph).2 rest

/-- The nodes that a history creates. -/
def created (graph : Graph) (history : List Operation) : List Node :=
  shown Operation.created? graph history

/-- The slots into which a history puts edges. -/
def added (graph : Graph) (history : List Operation) : List Slot :=
  shown Operation.added? graph history

/-- Whether some operation of a history passes a test. -/
def happens (test : Graph → Operation → Bool) : Graph → List Operation → Bool
  | _, [] => false
  | graph, operation :: rest => test graph operation || happens test (operation.run graph).2 rest

/-- Whether a history takes a node. -/
def takesNode (graph : Graph) (id : NodeId) (history : List Operation) : Bool :=
  happens (Operation.takesNode · id) graph history

/-- Whether a history takes the edge out of a slot. -/
def takesSlot (graph : Graph) (slot : Slot) (history : List Operation) : Bool :=
  happens (Operation.takesSlot · slot) graph history

variable {graph next : Graph} {id : NodeId} {node : Node} {slot : Slot} {edge : Edge}
  {operation : Operation} {answer : Except GraphError Outcome}

/-! ## What stays -/

/-- What leads to nothing after a step or after the rest of a history, leads to nothing
after both. -/
private theorem ite_none_ite_none {α : Type} (now later : Bool) (found : Option α) :
    (if later then none else if now then none else found) =
      if now || later then none else found := by
  cases now <;> cases later <;> rfl

namespace Invariant

theorem runAll (invariant : graph.Invariant) (history : List Operation) :
    (Operation.runAll graph history).Invariant := by
  induction history generalizing graph with
  | nil => exact invariant
  | cons operation rest ih => exact ih (invariant.run operation)

/-- What every step takes or leaves as it is, once it was given out, a history takes or leaves as
it is. -/
theorem view_runAll {α : Type} (view : Graph → Option α) (given : Graph → Prop)
    (takes : Graph → Operation → Bool)
    (step : ∀ (graph : Graph) (operation : Operation), graph.Invariant → given graph →
      given (operation.run graph).2 ∧
        view (operation.run graph).2 = if takes graph operation then none else view graph)
    (invariant : graph.Invariant) (history : List Operation) (start : given graph) :
    view (Operation.runAll graph history) =
      if happens takes graph history then none else view graph := by
  induction history generalizing graph with
  | nil => rfl
  | cons operation rest ih =>
      obtain ⟨still, kept⟩ := step graph operation invariant start
      rw [Operation.runAll_cons, ih (invariant.run operation) still, kept]
      exact ite_none_ite_none _ _ _

theorem node?_runAll (invariant : graph.Invariant) (history : List Operation)
    (given : id < graph.nextId) :
    (Operation.runAll graph history).node? id =
      if graph.takesNode id history then none else graph.node? id := by
  apply view_runAll (·.node? id) (id < ·.nextId) (Operation.takesNode · id) _ invariant history
    given
  intro graph operation invariant given
  have effect := invariant.effect_run operation
  exact ⟨Nat.lt_of_lt_of_le given effect.nextId_le, effect.node?_eq given⟩

theorem edge?_runAll (invariant : graph.Invariant) (history : List Operation)
    (given : slot < graph.slots.size) :
    (Operation.runAll graph history).edge? slot =
      if graph.takesSlot slot history then none else graph.edge? slot := by
  apply view_runAll (·.edge? slot) (slot < ·.slots.size) (Operation.takesSlot · slot) _ invariant
    history given
  intro graph operation invariant given
  have effect := invariant.effect_run operation
  exact ⟨Nat.lt_of_lt_of_le given effect.size_slots_le, effect.edge?_eq invariant given⟩

end Invariant

/-! ## What one operation adds -/

theorem contains_of_nodeForKey? {key : SyntaxKey} (stands : graph.nodeForKey? key = some node) :
    graph.contains node.id := by
  obtain ⟨id, _, found⟩ := Option.bind_eq_some_iff.mp stands
  exact id_of_node? found ▸ contains_of_node? found

theorem newNode?_of_contains (present : graph.contains node.id) :
    graph.newNode? (.ok (.node node)) = none :=
  if_pos present

theorem Invariant.newNode?_freshNode (invariant : graph.Invariant) (kind : NodeKind)
    (contents : String) (first last : Nat) :
    graph.newNode? (.ok (.node (graph.freshNode kind contents first last))) =
      some (graph.freshNode kind contents first last) :=
  if_neg invariant.contains_nextId

/-- The node that a creation makes is found under the id that was the next one. -/
theorem Invariant.node?_pushNode_nextId (invariant : graph.Invariant)
    (same : node.id = graph.nextId) : (graph.pushNode node).node? graph.nextId = some node := by
  have unused := node?_eq_none_iff.mpr invariant.contains_nextId
  rw [node?_pushNode, if_pos same, unused, Option.none_or]

namespace Effect

/-- A created node has the next id, and is found under it afterwards. -/
theorem of_newNode? (effect : Effect graph operation answer next) (invariant : graph.Invariant)
    (new : graph.newNode? answer = some node) :
    node.id = graph.nextId ∧ next.nextId = graph.nextId + 1 ∧
      next.node? graph.nextId = some node := by
  cases effect with
  | create_standing stands =>
      rw [newNode?_of_contains (contains_of_nodeForKey? stands)] at new
      cases new
  | removeNode found =>
      rw [newNode?_of_contains (id_of_node? found ▸ contains_of_node? found)] at new
      cases new
  | create_free =>
      rw [invariant.newNode?_freshNode] at new
      cases new
      exact ⟨rfl, rfl, invariant.node?_pushNode_nextId rfl⟩
  | createDetached =>
      rw [invariant.newNode?_freshNode] at new
      cases new
      exact ⟨rfl, rfl, invariant.node?_pushNode_nextId rfl⟩
  | _ => cases new

/-- A node is created whenever one is asked for that is not there yet. -/
theorem isSome_newNode? (effect : Effect graph operation answer next)
    (invariant : graph.Invariant) :
    (graph.newNode? answer).isSome = operation.asksForNew graph := by
  cases effect with
  | create_standing stands =>
      rw [newNode?_of_contains (contains_of_nodeForKey? stands), Operation.asksForNew, stands]
      rfl
  | removeNode found =>
      rw [newNode?_of_contains (id_of_node? found ▸ contains_of_node? found)]
      rfl
  | create_free free =>
      rw [invariant.newNode?_freshNode, Operation.asksForNew, free]
      rfl
  | createDetached =>
      rw [invariant.newNode?_freshNode]
      rfl
  | _ => rfl

/-- A new edge gets the slot behind all others, and is found in it afterwards. -/
theorem of_newSlot? (effect : Effect graph operation answer next)
    (new : newSlot? answer = some slot) :
    ∃ edge, operation = .addEdge edge ∧ slot = graph.slots.size ∧
      next.slots.size = graph.slots.size + 1 ∧ next.edge? slot = some edge := by
  cases effect with
  | addEdge source target =>
      cases new
      refine ⟨_, rfl, rfl, Array.size_push _, ?_⟩
      rw [edge?_pushEdge, if_pos rfl]
  | _ => cases new

/-- An edge that is accepted gets a slot. -/
theorem isSome_newSlot? (effect : Effect graph (.addEdge edge) answer next) :
    (newSlot? answer).isSome = answer.isOk := by
  cases effect <;> rfl

/-- Without a new edge there is no new slot. -/
theorem size_slots_eq (effect : Effect graph operation answer next)
    (none : newSlot? answer = none) : next.slots.size = graph.slots.size := by
  cases effect with
  | addEdge => cases none
  | removeNode => exact size_slots_withoutNode _ _
  | removeEdge => rw [slots_discardSlot, Array.size_setIfInBounds]
  | removeEdgeAt => rw [slots_discardSlot, Array.size_setIfInBounds]
  | prune removals => exact removals.size_slots
  | _ => rfl

end Effect

/-! ## What a history adds -/

namespace Invariant

/-- The nodes that a history creates have ascending ids, none of them given out before. -/
theorem created_ascend (invariant : graph.Invariant) (history : List Operation) :
    (∀ node ∈ graph.created history, graph.nextId ≤ node.id) ∧
      (graph.created history).Pairwise (·.id < ·.id) := by
  induction history generalizing graph with
  | nil => exact ⟨fun _ member => (List.not_mem_nil member).elim, .nil⟩
  | cons operation rest ih =>
      have effect := invariant.effect_run operation
      obtain ⟨later, ascend⟩ := ih (invariant.run operation)
      have notBefore : ∀ node ∈ (operation.run graph).2.created rest, graph.nextId ≤ node.id :=
        fun node member => Nat.le_trans effect.nextId_le (later node member)
      rw [created, shown]
      cases new : operation.created? graph with
      | none => exact ⟨notBefore, ascend⟩
      | some node =>
          obtain ⟨id, grown, _⟩ := effect.of_newNode? invariant new
          constructor
          · exact List.forall_mem_cons.mpr ⟨id.ge, notBefore⟩
          · refine List.pairwise_cons.mpr ⟨fun other member => ?_, ascend⟩
            rw [id]
            exact Nat.lt_of_lt_of_le (grown ▸ Nat.lt_succ_self _) (later other member)

/-- New edges get the slots behind those of the start, one after the other. -/
theorem added_eq_range' (invariant : graph.Invariant) (history : List Operation) :
    graph.added history = List.range' graph.slots.size (graph.added history).length := by
  induction history generalizing graph with
  | nil => rfl
  | cons operation rest ih =>
      have effect := invariant.effect_run operation
      have later := ih (invariant.run operation)
      rw [added, shown]
      cases new : operation.added? graph with
      | none =>
          rw [effect.size_slots_eq new] at later
          exact later
      | some slot =>
          obtain ⟨_, _, rfl, size, _⟩ := effect.of_newSlot? new
          rw [size] at later
          exact congrArg (graph.slots.size :: ·) later

end Invariant

/-! ## Where a history begins -/

/-- The graphs in which a history begins, with the edges that were added before it: none to
a new graph, those of the record to a loaded one. -/
inductive Begins : List Edge → Graph → Prop
  | empty (sourceFile : String) (lines : LineMap) : Begins [] (.empty sourceFile lines)
  | loaded {record : Record} {graph : Graph} (loaded : ofRecord record = .ok graph) :
      Begins record.edges graph

namespace Begins

variable {edges : List Edge}

theorem invariant (begins : Begins edges graph) : graph.Invariant := by
  cases begins with
  | empty => exact .empty _ _
  | loaded loaded => exact .ofRecord loaded

theorem slots (begins : Begins edges graph) : graph.slots.toList = edges.map some := by
  cases begins with
  | empty => rfl
  | loaded loaded => exact slots_ofRecord loaded

end Begins

/-! ## Identity -/

open Operation (runAll)

/-- Ids and slots never change their meaning, whatever is done to a graph to which `edges`
were added so far. -/
structure KeepsIdentities (edges : List Edge) (start : Graph) : Prop where
  /-- A node is created whenever one is asked for that is not there yet. -/
  creates : ∀ earlier (operation : Operation),
    (operation.created? (runAll start earlier)).isSome =
      operation.asksForNew (runAll start earlier)
  /-- Ids ascend in the order of creation, above those of the start. -/
  ids_ascend : ∀ history, (start.nodes ++ start.created history).Pairwise (·.id < ·.id)
  /-- No new node has the id of one that was ever in the graph. -/
  id_unused : ∀ earlier later, ∀ node ∈ (runAll start earlier).nodes,
    ∀ new ∈ (runAll start earlier).created later, node.id < new.id
  created_found : ∀ earlier (operation : Operation) node,
    operation.created? (runAll start earlier) = some node →
      (runAll start (earlier ++ [operation])).node? node.id = some node
  /-- The node of an id stays the same until it is taken, and then the id leads to nothing. -/
  node_lasts : ∀ earlier later id node, (runAll start earlier).node? id = some node →
    (runAll start (earlier ++ later)).node? id =
      if (runAll start earlier).takesNode id later then none else some node
  /-- The edges added before have the first slots. -/
  slots_start : start.slots.toList = edges.map some
  /-- An edge that is accepted gets a slot. -/
  adds : ∀ earlier edge, ((Operation.addEdge edge).added? (runAll start earlier)).isSome =
    ((Operation.addEdge edge).run (runAll start earlier)).1.isOk
  /-- Slots are given out one after the other. -/
  slots_count : ∀ history,
    start.added history = List.range' edges.length (start.added history).length
  added_found : ∀ earlier (operation : Operation) slot,
    operation.added? (runAll start earlier) = some slot →
      ∃ edge, operation = .addEdge edge ∧
        (runAll start (earlier ++ [operation])).edge? slot = some edge
  /-- The edge in a slot stays the same until it is taken, and then the slot stays empty. -/
  edge_lasts : ∀ earlier later slot edge, (runAll start earlier).edge? slot = some edge →
    (runAll start (earlier ++ later)).edge? slot =
      if (runAll start earlier).takesSlot slot later then none else some edge

theorem Invariant.lt_nextId_of_node? (invariant : graph.Invariant)
    (found : graph.node? id = some node) : id < graph.nextId :=
  id_of_node? found ▸ invariant.id_lt_nextId node (mem_of_node? found)

theorem keepsIdentities_of_begins {edges : List Edge} {start : Graph}
    (begins : Begins edges start) : KeepsIdentities edges start := by
  have state := begins.invariant.runAll
  have effect := fun earlier => (state earlier).effect_run
  constructor
  case creates =>
    intro earlier operation
    exact (effect earlier operation).isSome_newNode? (state earlier)
  case ids_ascend =>
    intro history
    obtain ⟨later, ascend⟩ := begins.invariant.created_ascend history
    refine List.pairwise_append.mpr ⟨begins.invariant.ids_ascend, ascend, ?_⟩
    intro node member new created
    exact Nat.lt_of_lt_of_le (begins.invariant.id_lt_nextId node member) (later new created)
  case id_unused =>
    intro earlier later node member new created
    exact Nat.lt_of_lt_of_le ((state earlier).id_lt_nextId node member)
      (((state earlier).created_ascend later).1 new created)
  case created_found =>
    intro earlier operation node created
    obtain ⟨id, _, found⟩ := (effect earlier operation).of_newNode? (state earlier) created
    rw [Operation.runAll_append, id]
    exact found
  case node_lasts =>
    intro earlier later id node found
    have lasts := (state earlier).node?_runAll later ((state earlier).lt_nextId_of_node? found)
    rw [found] at lasts
    rw [Operation.runAll_append]
    exact lasts
  case slots_start => exact begins.slots
  case adds => exact fun earlier edge => (effect earlier (.addEdge edge)).isSome_newSlot?
  case slots_count =>
    intro history
    have size : start.slots.size = edges.length := by
      rw [← Array.length_toList, begins.slots, List.length_map]
    exact size ▸ begins.invariant.added_eq_range' history
  case added_found =>
    intro earlier operation slot added
    obtain ⟨edge, same, _, _, found⟩ := (effect earlier operation).of_newSlot? added
    refine ⟨edge, same, ?_⟩
    rw [Operation.runAll_append]
    exact found
  case edge_lasts =>
    intro earlier later slot edge live
    have lasts := (state earlier).edge?_runAll later (slot_lt_size live)
    rw [live] at lasts
    rw [Operation.runAll_append]
    exact lasts

/-- A record with gaps between its ids, and with two equal edges. -/
def gappedRecord : Record where
  sourceFile := "gaps"
  nodes := [⟨5, .astRoot, "", 0, 3, 1, 1⟩, ⟨2, .astElement, "f", 0, 1, 1, 1⟩]
  edges := [⟨5, 2, .astChild⟩, ⟨5, 2, .astChild⟩]

/-- The graph of that record; its next node gets the id 6. -/
def gappedGraph : Graph where
  sourceFile := "gaps"
  nodes := gappedRecord.nodes.reverse
  slots := #[some ⟨5, 2, .astChild⟩, some ⟨5, 2, .astChild⟩]
  outgoing := .set {} 5 [0, 1]
  incoming := .set {} 2 [0, 1]
  nextId := 6
  liveCount := 2

theorem keepsIdentities_gapped :
    Begins gappedRecord.edges gappedGraph ∧ KeepsIdentities gappedRecord.edges gappedGraph := by
  have begins : Begins gappedRecord.edges gappedGraph := .loaded (by decide)
  exact ⟨begins, keepsIdentities_of_begins begins⟩

/-- Neither the gaps nor the id of a removed node are used for new nodes. -/
example :
    (gappedGraph.created [.createDetached .token "x" 0 1, .removeNode 6,
      .create .token "y" 0 1 10, .create .token "z" 0 1 10]).map (·.id) = [6, 7] := by
  decide

end Graph

end ProgramGraph
