import ProgramGraph.Proofs.Graph.Invariant
import ProgramGraph.Record

/-!
# Loading a record

A record is loaded node by node and then edge by edge, and loading stops at the first
element that is refused.  A node is refused if its id is taken or leaves no room for
a later one, an edge if one of its ends is not a node.  Whatever is accepted keeps
the invariant, so the graph of a record has it.
-/

namespace ProgramGraph.Graph

variable {graph next : Graph} {node other : Node} {nodes : List Node} {edge : Edge}

/-! ## One element -/

@[simp]
theorem mem_insertById : other ∈ insertById node nodes ↔ other = node ∨ other ∈ nodes := by
  induction nodes with
  | nil => simp [insertById]
  | cons first rest ih =>
      simp only [insertById]
      split
      · simp
      · simp only [List.mem_cons, ih]
        tauto

theorem insertById_ascend (ascend : nodes.Pairwise (·.id < ·.id))
    (fresh : ∀ other ∈ nodes, other.id ≠ node.id) :
    (insertById node nodes).Pairwise (·.id < ·.id) := by
  induction nodes with
  | nil => exact List.pairwise_singleton _ _
  | cons first rest ih =>
      obtain ⟨smallest, ascend⟩ := List.pairwise_cons.mp ascend
      obtain ⟨different, fresh⟩ := List.forall_mem_cons.mp fresh
      simp only [insertById]
      split
      · next smaller =>
        refine List.pairwise_cons.mpr ⟨?_, List.pairwise_cons.mpr ⟨smallest, ascend⟩⟩
        intro other member
        rcases List.mem_cons.mp member with rfl | later
        · exact smaller
        · exact Nat.lt_trans smaller (smallest other later)
      · next notSmaller =>
        refine List.pairwise_cons.mpr ⟨?_, ih ascend fresh⟩
        intro other member
        rcases mem_insertById.mp member with rfl | later
        · exact Nat.lt_of_le_of_ne (Nat.le_of_not_lt notSmaller) different
        · exact smallest other later

/-- A node with the greatest id goes behind all others. -/
theorem insertById_eq_append (greatest : ∀ other ∈ nodes, other.id < node.id) :
    insertById node nodes = nodes ++ [node] := by
  induction nodes with
  | nil => rfl
  | cons first rest ih =>
      obtain ⟨smaller, greatest⟩ := List.forall_mem_cons.mp greatest
      rw [insertById, if_neg (Nat.lt_asymm smaller), ih greatest, List.cons_append]

theorem loadNode_eq_ok_iff :
    loadNode graph node = .ok next ↔
      ¬graph.contains node.id ∧ node.id < idBound ∧
        next = { graph with
          nodes := insertById node graph.nodes
          nextId := max graph.nextId (node.id + 1) } := by
  unfold loadNode
  by_cases taken : graph.contains node.id
  · simp [taken]
  · by_cases large : idBound ≤ node.id
    · simp [taken, large, Nat.not_lt_of_le large]
    · simp [taken, large, eq_comm, Nat.lt_of_not_le large]

theorem addEdge_eq_ok_iff {source target : NodeId} {kind : EdgeKind} {slot : Slot} :
    graph.addEdge source target kind = .ok (slot, next) ↔
      graph.contains source ∧ graph.contains target ∧ slot = graph.slots.size ∧
        next = graph.pushEdge { source, target, kind } := by
  unfold addEdge require
  by_cases first : graph.contains source
  · by_cases second : graph.contains target
    · simp [first, second, bind, Except.bind, pure, Except.pure, eq_comm]
    · simp [first, second, bind, Except.bind]
  · simp [first, bind, Except.bind]

theorem loadEdge_eq_ok_iff :
    loadEdge graph edge = .ok next ↔
      graph.contains edge.source ∧ graph.contains edge.target ∧ next = graph.pushEdge edge := by
  rw [loadEdge]
  constructor
  · intro loaded
    cases added : graph.addEdge edge.source edge.target edge.kind with
    | error cause => simp [added, Except.map] at loaded
    | ok answer =>
        obtain ⟨slot, grown⟩ := answer
        obtain ⟨source, target, _, rfl⟩ := addEdge_eq_ok_iff.mp added
        rw [added] at loaded
        cases loaded
        exact ⟨source, target, rfl⟩
  · rintro ⟨source, target, rfl⟩
    rw [addEdge_eq_ok_iff.mpr ⟨source, target, rfl, rfl⟩]
    rfl

theorem Invariant.loadNode (invariant : graph.Invariant)
    (loaded : Graph.loadNode graph node = .ok next) : next.Invariant := by
  obtain ⟨fresh, _, rfl⟩ := loadNode_eq_ok_iff.mp loaded
  apply invariant.extend fresh
  · exact fun _ => mem_insertById
  · apply insertById_ascend invariant.ids_ascend
    intro other member same
    exact fresh (contains_iff.mpr ⟨other, member, same⟩)
  · intro other member
    rcases mem_insertById.mp member with rfl | earlier
    · exact Nat.lt_of_lt_of_le (Nat.lt_succ_self _) (Nat.le_max_right _ _)
    · exact Nat.lt_of_lt_of_le (invariant.id_lt_nextId other earlier) (Nat.le_max_left _ _)

theorem Invariant.loadEdge (invariant : graph.Invariant)
    (loaded : Graph.loadEdge graph edge = .ok next) : next.Invariant := by
  obtain ⟨source, target, rfl⟩ := loadEdge_eq_ok_iff.mp loaded
  exact invariant.pushEdge source target

/-! ## All elements -/

/-- Two steps are carried out if the first one is and then the second one is. -/
theorem bind_eq_ok_iff {α β ε : Type} {first : Except ε α} {next : α → Except ε β} {last : β} :
    first >>= next = .ok last ↔ ∃ middle, first = .ok middle ∧ next middle = .ok last := by
  cases first with
  | error cause => simp [bind, Except.bind]
  | ok middle => simp [bind, Except.bind]

/-- What every accepted element keeps, accepting a list of them keeps. -/
theorem foldlM_keeps {σ α ε : Type} {step : σ → α → Except ε σ} {P : σ → Prop}
    (keeps : ∀ state element after, P state → step state element = .ok after → P after)
    {state last : σ} {elements : List α} (start : P state)
    (done : elements.foldlM step state = .ok last) : P last := by
  induction elements generalizing state with
  | nil =>
      cases done
      exact start
  | cons element rest ih =>
      rw [List.foldlM_cons] at done
      obtain ⟨after, stepped, done⟩ := bind_eq_ok_iff.mp done
      exact ih (keeps state element after start stepped) done

theorem ofRecord_eq_ok_iff {record : Record} :
    ofRecord record = .ok graph ↔
      ∃ nodesOnly,
        record.nodes.foldlM loadNode (empty record.sourceFile {}) = .ok nodesOnly ∧
        record.edges.foldlM loadEdge nodesOnly = .ok graph := by
  exact bind_eq_ok_iff

theorem Invariant.ofRecord {record : Record} (loaded : Graph.ofRecord record = .ok graph) :
    graph.Invariant := by
  obtain ⟨nodesOnly, nodes, edges⟩ := ofRecord_eq_ok_iff.mp loaded
  have start : (Graph.empty record.sourceFile {}).Invariant := .empty _ _
  have middle : nodesOnly.Invariant :=
    foldlM_keeps (fun _ _ _ invariant loaded => invariant.loadNode loaded) start nodes
  exact foldlM_keeps (fun _ _ _ invariant loaded => invariant.loadEdge loaded) middle edges

/-! ## What a loaded graph holds -/

/-- Loaded edges get the slots behind those that are there, one after the other. -/
theorem slots_foldlM_loadEdge {edges : List Edge}
    (loaded : edges.foldlM loadEdge graph = .ok next) :
    next.slots.toList = graph.slots.toList ++ edges.map some := by
  induction edges generalizing graph with
  | nil =>
      cases loaded
      exact (List.append_nil _).symm
  | cons edge rest ih =>
      rw [List.foldlM_cons] at loaded
      obtain ⟨grown, stepped, loaded⟩ := bind_eq_ok_iff.mp loaded
      obtain ⟨_, _, rfl⟩ := loadEdge_eq_ok_iff.mp stepped
      rw [ih loaded, pushEdge, Array.toList_push, List.append_assoc]
      rfl

theorem slots_ofRecord {record : Record} (loaded : ofRecord record = .ok graph) :
    graph.slots.toList = record.edges.map some := by
  obtain ⟨nodesOnly, nodes, edges⟩ := ofRecord_eq_ok_iff.mp loaded
  have noSlots : nodesOnly.slots = #[] := by
    refine foldlM_keeps (P := (·.slots = #[])) ?_ rfl nodes
    intro state node after slots stepped
    obtain ⟨_, _, rfl⟩ := loadNode_eq_ok_iff.mp stepped
    exact slots
  rw [slots_foldlM_loadEdge edges, noSlots]
  rfl

theorem insertById_perm (node : Node) (nodes : List Node) :
    (insertById node nodes).Perm (node :: nodes) := by
  induction nodes with
  | nil => exact .refl _
  | cons first rest ih =>
      rw [insertById]
      split
      · exact .refl _
      · exact (ih.cons first).trans (.swap node first rest)

/-- Loaded nodes come to those that are there. -/
theorem nodes_foldlM_loadNode (loaded : nodes.foldlM loadNode graph = .ok next) :
    next.nodes.Perm (graph.nodes ++ nodes) := by
  induction nodes generalizing graph with
  | nil =>
      cases loaded
      exact .of_eq (List.append_nil _).symm
  | cons node rest ih =>
      rw [List.foldlM_cons] at loaded
      obtain ⟨grown, stepped, loaded⟩ := bind_eq_ok_iff.mp loaded
      obtain ⟨_, _, rfl⟩ := loadNode_eq_ok_iff.mp stepped
      calc next.nodes
        List.Perm _ (insertById node graph.nodes ++ rest) := ih loaded
        List.Perm _ (node :: graph.nodes ++ rest) := (insertById_perm node _).append_right rest
        List.Perm _ (graph.nodes ++ node :: rest) := List.perm_middle.symm

/-- A loaded graph has the name, the nodes and the edges of its record; only the nodes may
stand in another order. -/
theorem toRecord_ofRecord {record : Record} (loaded : Graph.ofRecord record = .ok graph) :
    graph.sourceFile = record.sourceFile ∧ graph.nodes.Perm record.nodes ∧
      graph.edges = record.edges := by
  obtain ⟨nodesOnly, nodes, edges⟩ := ofRecord_eq_ok_iff.mp loaded
  have named : nodesOnly.sourceFile = record.sourceFile := by
    refine foldlM_keeps (P := (·.sourceFile = record.sourceFile)) ?_ rfl nodes
    intro state node after same stepped
    obtain ⟨_, _, rfl⟩ := loadNode_eq_ok_iff.mp stepped
    exact same
  have kept : graph.sourceFile = nodesOnly.sourceFile ∧ graph.nodes = nodesOnly.nodes := by
    refine foldlM_keeps (P := fun state => state.sourceFile = nodesOnly.sourceFile ∧
      state.nodes = nodesOnly.nodes) ?_ ⟨rfl, rfl⟩ edges
    intro state edge after same stepped
    obtain ⟨_, _, rfl⟩ := loadEdge_eq_ok_iff.mp stepped
    exact same
  refine ⟨kept.1.trans named, ?_, ?_⟩
  · rw [kept.2]
    exact nodes_foldlM_loadNode nodes
  · rw [Graph.edges, slots_ofRecord loaded]
    simp

/-- Loaded ids leave room for a later one. -/
theorem id_lt_idBound_of_ofRecord {record : Record} (loaded : Graph.ofRecord record = .ok graph) :
    ∀ node ∈ graph.nodes, node.id < idBound := by
  obtain ⟨nodesOnly, nodes, edges⟩ := ofRecord_eq_ok_iff.mp loaded
  have bounded : ∀ node ∈ nodesOnly.nodes, node.id < idBound := by
    refine foldlM_keeps (P := fun state => ∀ node ∈ state.nodes, node.id < idBound) ?_
      (fun _ member => (List.not_mem_nil member).elim) nodes
    intro state node after bounded stepped other member
    obtain ⟨_, small, rfl⟩ := loadNode_eq_ok_iff.mp stepped
    rcases mem_insertById.mp member with rfl | earlier
    · exact small
    · exact bounded other earlier
  refine foldlM_keeps (P := fun state => ∀ node ∈ state.nodes, node.id < idBound) ?_ bounded edges
  intro state edge after bounded stepped
  obtain ⟨_, _, rfl⟩ := loadEdge_eq_ok_iff.mp stepped
  exact bounded

end ProgramGraph.Graph
