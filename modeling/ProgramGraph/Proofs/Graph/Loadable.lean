import ProgramGraph.Proofs.Graph.Refusals

/-!
# Which records are loaded

A record is loaded just when its nodes have distinct ids that leave room for a later one, and
both ends of each edge are among its nodes.  Loading looks at one element after the other and
knows only those before it.  That is enough: an element is accepted just when the elements up
to it form a record that can be loaded, so the first element that spoils the record is the one
that is refused, and `Record.FirstFault` names it with the cause of its refusal.
-/

namespace ProgramGraph

/-- Nodes with distinct ids, each of which leaves room for a later one. -/
structure LoadableNodes (nodes : List Node) : Prop where
  nodup_ids : (nodes.map (·.id)).Nodup
  /-- Stored ids have 64 bits, so this excludes the last one of them only. -/
  bounded : ∀ node ∈ nodes, node.id < Graph.idBound

/-- Both ends of an edge are among these nodes. -/
def Edge.Joins (nodes : List Node) (edge : Edge) : Prop :=
  edge.source ∈ nodes.map (·.id) ∧ edge.target ∈ nodes.map (·.id)

namespace Record

/-- Records of graphs; the nodes may stand in any order. -/
structure Loadable (record : Record) : Prop where
  nodes : LoadableNodes record.nodes
  edges : ∀ edge ∈ record.edges, edge.Joins record.nodes

/-- The first element of a record that cannot be loaded after those before it, and why.  The
nodes come before the edges, the source of an edge before its target, and a repeated id is
told before one that is too large. -/
inductive FirstFault (record : Record) : GraphError → Prop
  | repeated {before after : List Node} {node : Node}
      (nodes : record.nodes = before ++ node :: after) (good : LoadableNodes before)
      (taken : node.id ∈ before.map (·.id)) : FirstFault record (.duplicateNode node.id)
  | exhausted {before after : List Node} {node : Node}
      (nodes : record.nodes = before ++ node :: after) (good : LoadableNodes before)
      (free : node.id ∉ before.map (·.id)) (large : Graph.idBound ≤ node.id) :
      FirstFault record (.idSpaceExhausted node.id)
  | source {before after : List Edge} {edge : Edge} (nodes : LoadableNodes record.nodes)
      (edges : record.edges = before ++ edge :: after)
      (good : ∀ earlier ∈ before, earlier.Joins record.nodes)
      (absent : edge.source ∉ record.nodes.map (·.id)) :
      FirstFault record (.unknownNode edge.source)
  | target {before after : List Edge} {edge : Edge} (nodes : LoadableNodes record.nodes)
      (edges : record.edges = before ++ edge :: after)
      (good : ∀ earlier ∈ before, earlier.Joins record.nodes)
      (present : edge.source ∈ record.nodes.map (·.id))
      (absent : edge.target ∉ record.nodes.map (·.id)) :
      FirstFault record (.unknownNode edge.target)

/-- The id after the greatest one of a record. -/
def firstFreeId (record : Record) : NodeId :=
  ((record.nodes.map (·.id)).max?.map (· + 1)).getD 0

end Record

theorem loadableNodes_append_singleton {nodes : List Node} {node : Node} :
    LoadableNodes (nodes ++ [node]) ↔
      LoadableNodes nodes ∧ node.id ∉ nodes.map (·.id) ∧ node.id < Graph.idBound := by
  constructor
  · rintro ⟨distinct, bounded⟩
    rw [List.map_append, List.map_singleton, List.nodup_append] at distinct
    rcases distinct with ⟨distinct, -, apart⟩
    rw [List.forall_mem_append, List.forall_mem_singleton] at bounded
    refine ⟨⟨distinct, bounded.1⟩, ?_, bounded.2⟩
    intro taken
    exact apart node.id taken node.id (List.mem_singleton_self node.id) rfl
  · rintro ⟨⟨distinct, bounded⟩, free, small⟩
    constructor
    · rw [List.map_append, List.map_singleton]
      exact distinct.append (List.nodup_singleton node.id) (by simpa using free)
    · rw [List.forall_mem_append, List.forall_mem_singleton]
      exact ⟨bounded, small⟩

namespace Graph

variable {graph next nodesOnly : Graph} {nodes : List Node} {node : Node} {edges : List Edge}
  {edge : Edge} {cause : GraphError} {record : Record} {sourceFile : String} {lines : LineMap}

/-! ## Steps that fail -/

theorem bind_eq_error_iff {α β ε : Type} {first : Except ε α} {next : α → Except ε β}
    {cause : ε} :
    first >>= next = .error cause ↔
      first = .error cause ∨ ∃ middle, first = .ok middle ∧ next middle = .error cause := by
  cases first with
  | error other => simp [bind, Except.bind]
  | ok middle => simp [bind, Except.bind]

/-- Going through a list fails at one of its elements, after those before it were accepted. -/
theorem foldlM_eq_error_iff {σ α ε : Type} {step : σ → α → Except ε σ} {state : σ} {cause : ε}
    {elements : List α} :
    elements.foldlM step state = .error cause ↔
      ∃ before element after middle, elements = before ++ element :: after ∧
        before.foldlM step state = .ok middle ∧ step middle element = .error cause := by
  constructor
  · intro failed
    induction elements generalizing state with
    | nil => cases failed
    | cons element rest ih =>
        rw [List.foldlM_cons, bind_eq_error_iff] at failed
        rcases failed with here | ⟨middle, accepted, later⟩
        · exact ⟨[], element, rest, state, rfl, rfl, here⟩
        · rcases ih later with ⟨before, faulty, after, last, rfl, read, failed⟩
          refine ⟨element :: before, faulty, after, last, rfl, ?_, failed⟩
          rw [List.foldlM_cons, accepted]
          exact read
  · rintro ⟨before, element, after, middle, rfl, read, failed⟩
    rw [List.foldlM_append, read]
    apply bind_eq_error_iff.mpr
    exact .inr ⟨middle, rfl, by rw [List.foldlM_cons, failed]; rfl⟩

theorem loadNode_eq_error_iff :
    loadNode graph node = .error cause ↔
      graph.contains node.id ∧ cause = .duplicateNode node.id ∨
        ¬graph.contains node.id ∧ idBound ≤ node.id ∧ cause = .idSpaceExhausted node.id := by
  unfold loadNode
  by_cases taken : graph.contains node.id
  · simp [taken, eq_comm (b := cause)]
  · by_cases large : idBound ≤ node.id
    · simp [taken, large, eq_comm (b := cause)]
    · simp [taken, large]

theorem loadEdge_eq_error_iff :
    loadEdge graph edge = .error cause ↔
      ¬graph.contains edge.source ∧ cause = .unknownNode edge.source ∨
        graph.contains edge.source ∧ ¬graph.contains edge.target ∧
          cause = .unknownNode edge.target := by
  have refused : graph.addEdge edge.source edge.target edge.kind = .error cause ↔ _ :=
    addEdge_eq_error_iff
  rw [← refused, loadEdge]
  cases graph.addEdge edge.source edge.target edge.kind <;> simp [Except.map]

/-! ## Loading the nodes -/

/-- The ids of loaded nodes are those of the nodes that were read. -/
theorem contains_of_foldlM_loadNode
    (loaded : nodes.foldlM loadNode (empty sourceFile lines) = .ok next) (id : NodeId) :
    next.contains id ↔ id ∈ nodes.map (·.id) := by
  have same : next.nodes.Perm nodes := nodes_foldlM_loadNode loaded
  rw [contains_iff, List.mem_map]
  simp only [same.mem_iff]

theorem exists_foldlM_loadNode_iff :
    (∃ next, nodes.foldlM loadNode (empty sourceFile lines) = .ok next) ↔
      LoadableNodes nodes := by
  induction nodes using List.reverseRecOn with
  | nil => exact iff_of_true ⟨_, rfl⟩ ⟨List.nodup_nil, by simp⟩
  | append_singleton nodes node ih =>
      rw [loadableNodes_append_singleton, ← ih]
      simp only [List.foldlM_append, List.foldlM_cons, List.foldlM_nil, bind_pure,
        bind_eq_ok_iff, loadNode_eq_ok_iff]
      constructor
      · rintro ⟨next, middle, loaded, free, small, -⟩
        rw [contains_of_foldlM_loadNode loaded] at free
        exact ⟨⟨middle, loaded⟩, free, small⟩
      · rintro ⟨⟨middle, loaded⟩, free, small⟩
        rw [← contains_of_foldlM_loadNode loaded] at free
        exact ⟨_, middle, loaded, free, small, rfl⟩

/-- The next id is the least one beyond all nodes. -/
theorem nextId_foldlM_loadNode (loaded : nodes.foldlM loadNode graph = .ok next) (bound : NodeId) :
    next.nextId ≤ bound ↔ graph.nextId ≤ bound ∧ ∀ node ∈ nodes, node.id < bound := by
  induction nodes generalizing graph with
  | nil =>
      cases loaded
      simp
  | cons node rest ih =>
      rw [List.foldlM_cons, bind_eq_ok_iff] at loaded
      rcases loaded with ⟨middle, accepted, loaded⟩
      rcases loadNode_eq_ok_iff.mp accepted with ⟨-, -, rfl⟩
      rw [ih loaded, List.forall_mem_cons, ← and_assoc, Nat.max_le, Nat.succ_le_iff]

/-! ## Loading the edges -/

/-- Edges leave everything alone but the store of edges. -/
theorem foldlM_loadEdge_frame (loaded : edges.foldlM loadEdge graph = .ok next) :
    ∃ slots outgoing incoming liveCount,
      next = { graph with slots, outgoing, incoming, liveCount } := by
  refine foldlM_keeps (P := fun state => ∃ slots outgoing incoming liveCount,
    state = { graph with slots, outgoing, incoming, liveCount }) ?_ ?_ loaded
  · rintro state edge after ⟨_, _, _, _, rfl⟩ stepped
    rcases loadEdge_eq_ok_iff.mp stepped with ⟨-, -, rfl⟩
    exact ⟨_, _, _, _, rfl⟩
  · exact ⟨_, _, _, _, rfl⟩

theorem contains_of_foldlM_loadEdge (loaded : edges.foldlM loadEdge graph = .ok next)
    (id : NodeId) : next.contains id = graph.contains id := by
  rcases foldlM_loadEdge_frame loaded with ⟨_, _, _, _, rfl⟩
  rfl

theorem exists_foldlM_loadEdge_iff :
    (∃ next, edges.foldlM loadEdge graph = .ok next) ↔
      ∀ edge ∈ edges, graph.contains edge.source ∧ graph.contains edge.target := by
  induction edges using List.reverseRecOn with
  | nil => exact iff_of_true ⟨_, rfl⟩ (by simp)
  | append_singleton edges edge ih =>
      rw [List.forall_mem_append, List.forall_mem_singleton, ← ih]
      simp only [List.foldlM_append, List.foldlM_cons, List.foldlM_nil, bind_pure,
        bind_eq_ok_iff, loadEdge_eq_ok_iff]
      constructor
      · rintro ⟨next, middle, loaded, source, target, -⟩
        rw [contains_of_foldlM_loadEdge loaded] at source target
        exact ⟨⟨middle, loaded⟩, source, target⟩
      · rintro ⟨⟨middle, loaded⟩, source, target⟩
        rw [← contains_of_foldlM_loadEdge loaded] at source target
        exact ⟨_, middle, loaded, source, target, rfl⟩

/-- Over loaded nodes, edges are loaded if they join nodes that were read. -/
theorem exists_foldlM_loadEdge_iff_joins
    (loaded : nodes.foldlM loadNode (empty sourceFile lines) = .ok nodesOnly) :
    (∃ next, edges.foldlM loadEdge nodesOnly = .ok next) ↔ ∀ edge ∈ edges, edge.Joins nodes := by
  rw [exists_foldlM_loadEdge_iff]
  simp only [contains_of_foldlM_loadNode loaded, Edge.Joins]

/-! ## Loading a record -/

theorem exists_ofRecord_iff : (∃ graph, ofRecord record = .ok graph) ↔ record.Loadable := by
  simp only [ofRecord_eq_ok_iff]
  constructor
  · rintro ⟨graph, nodesOnly, nodes, edges⟩
    exact ⟨exists_foldlM_loadNode_iff.mp ⟨nodesOnly, nodes⟩,
      (exists_foldlM_loadEdge_iff_joins nodes).mp ⟨graph, edges⟩⟩
  · rintro ⟨loadable, joins⟩
    rcases exists_foldlM_loadNode_iff.mpr loadable with ⟨nodesOnly, nodes⟩
    rcases (exists_foldlM_loadEdge_iff_joins nodes).mpr joins with ⟨graph, edges⟩
    exact ⟨graph, nodesOnly, nodes, edges⟩

/-- A node is refused as the first fault of its record. -/
theorem foldlM_loadNode_eq_error_iff :
    record.nodes.foldlM loadNode (empty sourceFile lines) = .error cause ↔
      ∃ before node after, record.nodes = before ++ node :: after ∧ LoadableNodes before ∧
        (node.id ∈ before.map (·.id) ∧ cause = .duplicateNode node.id ∨
          node.id ∉ before.map (·.id) ∧ idBound ≤ node.id ∧
            cause = .idSpaceExhausted node.id) := by
  rw [foldlM_eq_error_iff]
  refine exists_congr fun before => exists_congr fun node => exists_congr fun after => ?_
  constructor
  · rintro ⟨middle, read, loaded, refused⟩
    rw [loadNode_eq_error_iff, contains_of_foldlM_loadNode loaded] at refused
    exact ⟨read, exists_foldlM_loadNode_iff.mp ⟨middle, loaded⟩, refused⟩
  · rintro ⟨read, good, refused⟩
    rcases exists_foldlM_loadNode_iff.mpr good with ⟨middle, loaded⟩
    rw [← contains_of_foldlM_loadNode loaded] at refused
    exact ⟨middle, read, loaded, loadNode_eq_error_iff.mpr refused⟩

/-- Over loaded nodes, an edge is refused if it is the first that joins none of them. -/
theorem foldlM_loadEdge_eq_error_iff
    (loaded : nodes.foldlM loadNode (empty sourceFile lines) = .ok nodesOnly) :
    edges.foldlM loadEdge nodesOnly = .error cause ↔
      ∃ before edge after, edges = before ++ edge :: after ∧
        (∀ earlier ∈ before, earlier.Joins nodes) ∧
        (edge.source ∉ nodes.map (·.id) ∧ cause = .unknownNode edge.source ∨
          edge.source ∈ nodes.map (·.id) ∧ edge.target ∉ nodes.map (·.id) ∧
            cause = .unknownNode edge.target) := by
  rw [foldlM_eq_error_iff]
  refine exists_congr fun before => exists_congr fun edge => exists_congr fun after => ?_
  constructor
  · rintro ⟨middle, read, joined, refused⟩
    simp only [loadEdge_eq_error_iff, contains_of_foldlM_loadEdge joined,
      contains_of_foldlM_loadNode loaded] at refused
    exact ⟨read, (exists_foldlM_loadEdge_iff_joins loaded).mp ⟨middle, joined⟩, refused⟩
  · rintro ⟨read, good, refused⟩
    rcases (exists_foldlM_loadEdge_iff_joins loaded).mpr good with ⟨middle, joined⟩
    refine ⟨middle, read, joined, ?_⟩
    simpa only [loadEdge_eq_error_iff, contains_of_foldlM_loadEdge joined,
      contains_of_foldlM_loadNode loaded] using refused

theorem ofRecord_eq_error_iff : ofRecord record = .error cause ↔ record.FirstFault cause := by
  constructor
  · intro refused
    rcases bind_eq_error_iff.mp refused with inNodes | ⟨nodesOnly, loaded, inEdges⟩
    · rcases foldlM_loadNode_eq_error_iff.mp inNodes with
        ⟨before, node, after, read, good, ⟨taken, rfl⟩ | ⟨free, large, rfl⟩⟩
      · exact .repeated read good taken
      · exact .exhausted read good free large
    · have nodes := exists_foldlM_loadNode_iff.mp ⟨nodesOnly, loaded⟩
      rcases (foldlM_loadEdge_eq_error_iff loaded).mp inEdges with
        ⟨before, edge, after, read, good, ⟨absent, rfl⟩ | ⟨present, absent, rfl⟩⟩
      · exact .source nodes read good absent
      · exact .target nodes read good present absent
  · have inNodes (refused : record.nodes.foldlM loadNode (empty record.sourceFile {}) =
        .error cause) : ofRecord record = .error cause :=
      bind_eq_error_iff.mpr (.inl refused)
    have inEdges (nodes : LoadableNodes record.nodes)
        (refused : ∃ before edge after, record.edges = before ++ edge :: after ∧
          (∀ earlier ∈ before, earlier.Joins record.nodes) ∧
          (edge.source ∉ record.nodes.map (·.id) ∧ cause = .unknownNode edge.source ∨
            edge.source ∈ record.nodes.map (·.id) ∧ edge.target ∉ record.nodes.map (·.id) ∧
              cause = .unknownNode edge.target)) : ofRecord record = .error cause := by
      rcases exists_foldlM_loadNode_iff.mpr nodes with ⟨nodesOnly, loaded⟩
      exact bind_eq_error_iff.mpr
        (.inr ⟨nodesOnly, loaded, (foldlM_loadEdge_eq_error_iff loaded).mpr refused⟩)
    intro fault
    cases fault with
    | repeated read good taken =>
        exact inNodes (foldlM_loadNode_eq_error_iff.mpr
          ⟨_, _, _, read, good, .inl ⟨taken, rfl⟩⟩)
    | exhausted read good free large =>
        exact inNodes (foldlM_loadNode_eq_error_iff.mpr
          ⟨_, _, _, read, good, .inr ⟨free, large, rfl⟩⟩)
    | source nodes read good absent =>
        exact inEdges nodes ⟨_, _, _, read, good, .inl ⟨absent, rfl⟩⟩
    | target nodes read good present absent =>
        exact inEdges nodes ⟨_, _, _, read, good, .inr ⟨present, absent, rfl⟩⟩

/-! ## What a loaded graph holds -/

theorem firstFreeId_le_iff (bound : NodeId) :
    record.firstFreeId ≤ bound ↔ ∀ node ∈ record.nodes, node.id < bound := by
  rw [Record.firstFreeId]
  cases greatest : (record.nodes.map (·.id)).max? with
  | none =>
      rw [List.max?_eq_none_iff, List.map_eq_nil_iff] at greatest
      simp [greatest]
  | some last =>
      rw [List.max?_eq_some_iff] at greatest
      rcases greatest with ⟨member, greatest⟩
      rw [Option.map_some, Option.getD_some, Nat.succ_le_iff]
      constructor
      · intro beyond node listed
        exact Nat.lt_of_le_of_lt (greatest node.id (List.mem_map_of_mem listed)) beyond
      · intro below
        rcases List.mem_map.mp member with ⟨node, listed, rfl⟩
        exact below node listed

theorem nextId_ofRecord (loaded : ofRecord record = .ok graph) :
    graph.nextId = record.firstFreeId := by
  rcases ofRecord_eq_ok_iff.mp loaded with ⟨nodesOnly, nodes, edges⟩
  rcases foldlM_loadEdge_frame edges with ⟨_, _, _, _, rfl⟩
  apply eq_of_forall_ge_iff
  intro bound
  rw [firstFreeId_le_iff]
  exact (nextId_foldlM_loadNode nodes bound).trans (and_iff_right (Nat.zero_le bound))

/-- No key stands for a node of a loaded graph. -/
theorem associations_ofRecord (loaded : ofRecord record = .ok graph) :
    graph.associations = {} := by
  rcases ofRecord_eq_ok_iff.mp loaded with ⟨nodesOnly, nodes, edges⟩
  rcases foldlM_loadEdge_frame edges with ⟨_, _, _, _, rfl⟩
  refine foldlM_keeps (P := (·.associations = {})) ?_ rfl nodes
  intro state node after unkeyed stepped
  rcases loadNode_eq_ok_iff.mp stepped with ⟨-, -, rfl⟩
  exact unkeyed

/-- A graph holds what a record says: the nodes as they are, by ascending id, and the edges in
their order, in the first slots. -/
structure Holds (graph : Graph) (record : Record) : Prop where
  sourceFile : graph.sourceFile = record.sourceFile
  nodes : graph.nodes.Perm record.nodes
  ids_ascend : graph.nodes.Pairwise (·.id < ·.id)
  edges : graph.edges = record.edges
  edge?_eq : ∀ slot, graph.edge? slot = record.edges[slot]?
  size_slots : graph.slots.size = record.edges.length
  /-- The next node gets the id after the greatest one, whether a key is given or not. -/
  id_createDetached : ∀ kind contents first last,
    (graph.createDetached kind contents first last).1.id = record.firstFreeId
  id_create : ∀ kind contents first last key,
    (graph.create kind contents first last key).1.id = record.firstFreeId

theorem holds_of_ofRecord (loaded : ofRecord record = .ok graph) : graph.Holds record := by
  rcases toRecord_ofRecord loaded with ⟨sourceFile, nodes, edges⟩
  have slots := slots_ofRecord loaded
  constructor
  case sourceFile => exact sourceFile
  case nodes => exact nodes
  case ids_ascend => exact (Invariant.ofRecord loaded).ids_ascend
  case edges => exact edges
  case edge?_eq =>
    intro slot
    rw [edge?, ← Array.getElem?_toList, slots, List.getElem?_map]
    cases record.edges[slot]? <;> rfl
  case size_slots => rw [← Array.length_toList, slots, List.length_map]
  case id_createDetached => exact fun _ _ _ _ => nextId_ofRecord loaded
  case id_create =>
    intro kind contents first last key
    have free : graph.nodeForKey? key = none := by
      rw [nodeForKey?, associations_ofRecord loaded]
      rfl
    rw [create, free]
    exact nextId_ofRecord loaded

/-- Which records are loaded, what their graphs hold, and why all others are refused. -/
structure LoadsExactly (record : Record) : Prop where
  accepted_iff : (∃ graph, ofRecord record = .ok graph) ↔ record.Loadable
  holds : ∀ graph, ofRecord record = .ok graph → graph.Holds record
  refused_iff : ∀ cause, ofRecord record = .error cause ↔ record.FirstFault cause

theorem loadsExactly (record : Record) : LoadsExactly record where
  accepted_iff := exists_ofRecord_iff
  holds _ loaded := holds_of_ofRecord loaded
  refused_iff _ := ofRecord_eq_error_iff

end Graph

end ProgramGraph
