import ProgramGraph.Proofs.Dot.Clusters

/-!
# Layers are distances from the root

The walk through the layers of a drawing knows only two things: the nodes that were shown
and the layer that was shown last.  It goes on to the children of that layer that were not
shown.  Edges of the syntax tree may make cycles, meet in a shared child, run side by side or
lead from a node to itself; a node is at home in one layer all the same, the one of its depth,
which is the length of the shortest way to it from the root.

What the walk does not reach is put into the blocks after the layers, by its kind.
-/

namespace ProgramGraph

variable {graph : Graph} {root id : NodeId} {depth : Nat}

/-! ## Ways from the root -/

namespace Graph

/-- A way along edges of the syntax tree leads from the root to a node.  It may pass a node
more than once. -/
inductive Descends (graph : Graph) (root : NodeId) : Nat → NodeId → Prop
  | root : Descends graph root 0 root
  | child {length : Nat} {parent id : NodeId} (above : Descends graph root length parent)
      (edge : ⟨parent, id, .astChild⟩ ∈ graph.edges) : Descends graph root (length + 1) id

/-- The shortest way from the root to a node has this length. -/
structure HasDepth (graph : Graph) (root : NodeId) (depth : Nat) (id : NodeId) : Prop where
  descends : graph.Descends root depth id
  shortest : ∀ length < depth, ¬graph.Descends root length id

theorem Descends.contains (invariant : graph.Invariant) (present : graph.contains root)
    (descends : graph.Descends root depth id) : graph.contains id := by
  cases descends with
  | root => exact present
  | child _ edge => exact (invariant.ends_of_mem_edges edge).2

/-- Where a way leads, a shortest way leads. -/
theorem Descends.exists_hasDepth {length : Nat} (descends : graph.Descends root length id) :
    ∃ depth ≤ length, graph.HasDepth root depth id := by
  classical
  have some : ∃ length, graph.Descends root length id := ⟨length, descends⟩
  exact ⟨Nat.find some, Nat.find_min' some descends, Nat.find_spec some,
    fun _ less => Nat.find_min some less⟩

theorem hasDepth_zero_iff : graph.HasDepth root 0 id ↔ id = root := by
  constructor
  · rintro ⟨descends, -⟩
    cases descends
    rfl
  · rintro rfl
    exact ⟨.root, fun length less => absurd less (Nat.not_lt_zero length)⟩

namespace HasDepth

theorem unique {other : Nat} (first : graph.HasDepth root depth id)
    (second : graph.HasDepth root other id) : depth = other := by
  rcases Nat.lt_trichotomy depth other with less | same | greater
  · exact absurd first.descends (second.shortest depth less)
  · exact same
  · exact absurd second.descends (first.shortest other greater)

/-- The node before the last one of a shortest way has a depth that is less by one: a shorter
way to it would be continued to a shorter way. -/
theorem exists_parent (deeper : graph.HasDepth root (depth + 1) id) :
    ∃ parent, graph.HasDepth root depth parent ∧ ⟨parent, id, .astChild⟩ ∈ graph.edges := by
  rcases deeper with ⟨descends, shortest⟩
  cases descends with
  | @child _ parent _ above edge =>
      refine ⟨parent, ⟨above, ?_⟩, edge⟩
      intro length less shorter
      exact shortest (length + 1) (Nat.succ_lt_succ less) (.child shorter edge)

/-- There are nodes at every depth above that of a node. -/
theorem exists_above {more : Nat} (deeper : graph.HasDepth root (depth + more) id) :
    ∃ above, graph.HasDepth root depth above := by
  induction more generalizing id with
  | zero => exact ⟨id, deeper⟩
  | succ more inductionHypothesis =>
      rcases deeper.exists_parent with ⟨parent, higher, -⟩
      exact inductionHypothesis higher

end HasDepth

/-- A child of a node at some depth is at the next depth, unless it is at an earlier one. -/
theorem hasDepth_succ_iff :
    graph.HasDepth root (depth + 1) id ↔
      (∃ parent, graph.HasDepth root depth parent ∧ ⟨parent, id, .astChild⟩ ∈ graph.edges) ∧
        ∀ earlier ≤ depth, ¬graph.HasDepth root earlier id := by
  constructor
  · intro deeper
    refine ⟨deeper.exists_parent, ?_⟩
    intro earlier above here
    have same := here.unique deeper
    omega
  · rintro ⟨⟨parent, higher, edge⟩, late⟩
    refine ⟨.child higher.descends edge, ?_⟩
    intro length less shorter
    rcases shorter.exists_hasDepth with ⟨earlier, le, here⟩
    exact late earlier (by omega) here

end Graph

namespace Dot

/-! ## Layers -/

theorem mem_children_iff (invariant : graph.Invariant) {node child : Node} :
    child ∈ children graph node ↔
      child ∈ graph.nodes ∧ ⟨node.id, child.id, .astChild⟩ ∈ graph.edges := by
  simp only [children, List.mem_filterMap, List.mem_eraseDups, List.mem_map, Graph.edgesFrom,
    List.mem_filter, Bool.and_eq_true, beq_iff_eq, Graph.admits, List.contains_iff_mem,
    List.mem_singleton]
  constructor
  · rintro ⟨_, ⟨⟨source, target, kind⟩, ⟨live, rfl, rfl⟩, rfl⟩, found⟩
    rcases invariant.node?_eq_some_iff.mp found with ⟨member, rfl⟩
    exact ⟨member, live⟩
  · rintro ⟨member, live⟩
    exact ⟨child.id, ⟨_, ⟨live, rfl, rfl⟩, rfl⟩, invariant.node?_eq_some_iff.mpr ⟨member, rfl⟩⟩

/-- The walk through the layers has come to a depth: what was shown is above it, and the layer
is all that is at it. -/
structure AtDepth (graph : Graph) (root : NodeId) (depth : Nat) (shown layer : List Node) : Prop
    extends Sound graph (shown ++ layer) where
  mem_shown_iff : ∀ node ∈ graph.nodes,
    node ∈ shown ↔ ∃ above < depth, graph.HasDepth root above node.id
  mem_layer_iff : ∀ node ∈ graph.nodes, node ∈ layer ↔ graph.HasDepth root depth node.id

namespace AtDepth

variable {shown layer : List Node}

theorem atRoot {node : Node} (invariant : graph.Invariant) (member : node ∈ graph.nodes) :
    AtDepth graph node.id 0 [] [node] where
  toSound := sound_root member
  mem_shown_iff _ _ := by simp
  mem_layer_iff other present := by
    rw [List.mem_singleton, Graph.hasDepth_zero_iff]
    constructor
    · rintro rfl
      rfl
    · exact List.inj_on_of_nodup_map invariant.nodup_ids present member

/-- One step of the walk leads to the next depth. -/
theorem next (atDepth : AtDepth graph root depth shown layer) (invariant : graph.Invariant)
    (present : graph.contains root) :
    AtDepth graph root (depth + 1) (shown ++ layer) (layerAfter graph (shown ++ layer) layer) := by
  have mem_before : ∀ node ∈ graph.nodes,
      node ∈ shown ++ layer ↔ ∃ above < depth + 1, graph.HasDepth root above node.id := by
    intro node member
    rw [List.mem_append, atDepth.mem_shown_iff node member, atDepth.mem_layer_iff node member]
    constructor
    · rintro (⟨above, less, here⟩ | here)
      · exact ⟨above, Nat.lt_succ_of_lt less, here⟩
      · exact ⟨depth, Nat.lt_succ_self depth, here⟩
    · rintro ⟨above, less, here⟩
      rcases Nat.lt_succ_iff_lt_or_eq.mp less with less | rfl
      · exact .inl ⟨above, less, here⟩
      · exact .inr here
  constructor
  case toSound => exact atDepth.toSound.layerAfter layer
  case mem_shown_iff => exact mem_before
  case mem_layer_iff =>
    intro node member
    rw [mem_layerAfter, mem_before node member, Graph.hasDepth_succ_iff]
    apply and_congr
    · constructor
      · rintro ⟨parent, inLayer, child⟩
        have known := atDepth.members_layer parent inLayer
        exact ⟨parent.id, (atDepth.mem_layer_iff parent known).mp inLayer,
          ((mem_children_iff invariant).mp child).2⟩
      · rintro ⟨parent, higher, edge⟩
        rcases Graph.contains_iff.mp (higher.descends.contains invariant present) with
          ⟨found, known, rfl⟩
        exact ⟨found, (atDepth.mem_layer_iff found known).mpr higher,
          (mem_children_iff invariant).mpr ⟨member, edge⟩⟩
    · simp only [not_exists, not_and, Nat.lt_succ_iff]

/-- If the layer is empty, no node is at its depth or below. -/
theorem not_hasDepth (atDepth : AtDepth graph root depth shown []) (invariant : graph.Invariant)
    (present : graph.contains root) (more : Nat) : ¬graph.HasDepth root (depth + more) id := by
  intro deeper
  rcases deeper.exists_above with ⟨above, here⟩
  rcases Graph.contains_iff.mp (here.descends.contains invariant present) with ⟨node, member, rfl⟩
  exact List.not_mem_nil ((atDepth.mem_layer_iff node member).mpr here)

end AtDepth

/-- Layers from some depth on: each holds the nodes at its depth, and there is one for every
depth at which there are nodes. -/
structure Layered (graph : Graph) (root : NodeId) (depth : Nat) (tree : List (List Node)) :
    Prop where
  mem_iff : ∀ place layer, tree[place]? = some layer →
    ∀ node, node ∈ layer ↔ node ∈ graph.nodes ∧ graph.HasDepth root (depth + place) node.id
  lt_length_iff : ∀ place, place < tree.length ↔ ∃ id, graph.HasDepth root (depth + place) id

theorem Layered.nil (none : ∀ more id, ¬graph.HasDepth root (depth + more) id) :
    Layered graph root depth [] where
  mem_iff place layer listed := by cases listed
  lt_length_iff place := by simpa using none place

/-- A layer before those of the depths below it. -/
theorem AtDepth.layered_cons {shown others : List Node} {first : Node} {rest : List (List Node)}
    (atDepth : AtDepth graph root depth shown (first :: others))
    (below : Layered graph root (depth + 1) rest) :
    Layered graph root depth ((first :: others) :: rest) := by
  have known := atDepth.members_layer
  constructor
  case mem_iff =>
    intro place layer listed node
    cases place with
    | zero =>
        cases listed
        constructor
        · intro member
          exact ⟨known node member, (atDepth.mem_layer_iff node (known node member)).mp member⟩
        · rintro ⟨inGraph, here⟩
          exact (atDepth.mem_layer_iff node inGraph).mpr here
    | succ place =>
        rw [below.mem_iff place layer listed, Nat.add_right_comm]
        rfl
  case lt_length_iff =>
    intro place
    cases place with
    | zero =>
        have here := (atDepth.mem_layer_iff first (known first List.mem_cons_self)).mp
          List.mem_cons_self
        exact iff_of_true (Nat.succ_pos _) ⟨first.id, here⟩
    | succ place =>
        rw [List.length_cons, Nat.succ_lt_succ_iff, below.lt_length_iff, Nat.add_right_comm]
        rfl

/-- The run of the walk: whatever depth it has come to, it gives the layers from there on. -/
theorem AtDepth.layered (invariant : graph.Invariant) (present : graph.contains root) (bound : Nat)
    {shown layer : List Node} {tree : List (List Node)}
    (atDepth : AtDepth graph root depth shown layer)
    (enough : graph.nodes.length ≤ shown.length + bound)
    (reached : layersFrom graph bound shown layer = .ok tree) :
    Layered graph root depth tree := by
  induction bound generalizing depth shown layer tree with
  | zero =>
      cases reached
      have all := atDepth.length_le
      rw [List.length_append] at all
      obtain rfl : layer = [] := List.eq_nil_of_length_eq_zero (by omega)
      exact .nil fun more _ => atDepth.not_hasDepth invariant present more
  | succ bound inductionHypothesis =>
      cases layer with
      | nil =>
          rw [layersFrom_nil] at reached
          cases reached
          exact .nil fun more _ => atDepth.not_hasDepth invariant present more
      | cons first others =>
          have enoughAfter : graph.nodes.length ≤ (shown ++ first :: others).length + bound := by
            rw [List.length_append, List.length_cons]
            omega
          rw [layersFrom_cons invariant atDepth.members_layer] at reached
          cases deeper : layersFrom graph bound (shown ++ first :: others)
              (layerAfter graph (shown ++ first :: others) (first :: others)) with
          | error cause =>
              rw [deeper] at reached
              cases reached
          | ok rest =>
              rw [deeper] at reached
              cases reached
              exact atDepth.layered_cons
                (inductionHypothesis (atDepth.next invariant present) enoughAfter deeper)

/-! ## The blocks after the layers -/

/-- The blocks of the layers. -/
def layerBlocks (tree : List (List Node)) : List Block :=
  tree.map (⟨some .same, ·⟩)

/-- The nodes of a list that have one of these kinds. -/
def ofKinds (kinds : List NodeKind) (nodes : List Node) : List Node :=
  nodes.filter (kinds.contains ·.kind)

/-- The blocks of nodes that are in no layer: comments, symbols, tokens and all others. -/
def laterBlocks (left : List Node) : List Block :=
  blockOf none (ofKinds [.commentBlock, .commentJavadoc, .commentLine] left) ++
    blockOf none (ofKinds [.symbol] left) ++
    blockOf (some .max) (ofKinds [.token, .identifierToken] left) ++
    blockOf none (left.filter fun node => !List.contains [.commentBlock, .commentJavadoc,
      .commentLine, .symbol, .token, .identifierToken] node.kind)

/-- What is shown is what is in the layers, and of the other nodes those of some kinds. -/
def ShowsKinds (graph : Graph) (tree : List (List Node)) (kinds : List NodeKind)
    (blocks : List Block) : Prop :=
  ∀ node ∈ graph.nodes, node ∈ shown blocks ↔ node ∈ tree.flatten ∨ node.kind ∈ kinds

namespace ShowsKinds

variable {tree : List (List Node)} {blocks : List Block} {earlier kinds : List NodeKind}

/-- A pass over the nodes of some kinds that no pass has asked for shows those of them that
are in no layer. -/
theorem addBlock_eq (shows : ShowsKinds graph tree earlier blocks)
    (other : ∀ kind ∈ kinds, kind ∉ earlier) (rank : Option Rank) :
    addBlock rank (graph.nodesOfKind kinds) blocks =
      blocks ++ blockOf rank (ofKinds kinds (graph.nodes.filter (· ∉ tree.flatten))) := by
  rw [Dot.addBlock_eq, Graph.nodesOfKind, ofKinds, List.filter_filter, List.filter_filter]
  congr 2
  apply List.filter_congr
  intro node member
  rw [Bool.eq_iff_iff]
  simp only [Bool.and_eq_true, decide_eq_true_iff, List.contains_iff_mem, shows node member,
    not_or]
  constructor
  · rintro ⟨⟨unreached, -⟩, asked⟩
    exact ⟨asked, unreached⟩
  · rintro ⟨asked, unreached⟩
    exact ⟨⟨unreached, other _ asked⟩, asked⟩

theorem addBlock (shows : ShowsKinds graph tree earlier blocks) (kinds : List NodeKind)
    (rank : Option Rank) :
    ShowsKinds graph tree (earlier ++ kinds)
      (addBlock rank (graph.nodesOfKind kinds) blocks) := by
  intro node member
  have asked : node ∈ graph.nodesOfKind kinds ↔ node.kind ∈ kinds := by
    rw [Graph.nodesOfKind, List.mem_filter, List.contains_iff_mem]
    exact and_iff_right member
  rw [shown_addBlock, List.mem_append, List.mem_filter, decide_eq_true_iff, asked,
    shows node member, List.mem_append]
  tauto

/-- The last pass is over all nodes and shows those of kinds that no pass has asked for. -/
theorem addBlock_nodes (shows : ShowsKinds graph tree earlier blocks) (rank : Option Rank) :
    Dot.addBlock rank graph.nodes blocks =
      blocks ++ blockOf rank ((graph.nodes.filter (· ∉ tree.flatten)).filter
        fun node => !earlier.contains node.kind) := by
  rw [Dot.addBlock_eq, List.filter_filter]
  congr 2
  apply List.filter_congr
  intro node member
  rw [Bool.eq_iff_iff]
  simp only [Bool.and_eq_true, Bool.not_eq_true', Bool.eq_false_iff, ne_eq, decide_eq_true_iff,
    List.contains_iff_mem, shows node member, not_or]
  exact and_comm

end ShowsKinds

/-- The passes after the layers give each kind its block. -/
theorem passes_eq (graph : Graph) (tree : List (List Node)) :
    passes graph tree =
      layerBlocks tree ++ laterBlocks (graph.nodes.filter (· ∉ tree.flatten)) := by
  have layered : ShowsKinds graph tree [] (layerBlocks tree) := by
    intro node _
    rw [shown, layerBlocks, List.flatMap_map, List.flatMap_id']
    simp
  have comments := layered.addBlock [.commentBlock, .commentJavadoc, .commentLine] none
  have symbols := comments.addBlock [.symbol] none
  have tokens := symbols.addBlock [.token, .identifierToken] (some .max)
  rw [passes, ← layerBlocks, Graph.tokens, Graph.symbols, Graph.comments, tokens.addBlock_nodes,
    symbols.addBlock_eq (by decide), comments.addBlock_eq (by decide),
    layered.addBlock_eq (by decide), laterBlocks]
  simp only [List.append_assoc]
  rfl

/-! ## Drawings -/

/-- A drawing has a block for every depth at which there are nodes, with just these nodes, and
after them the blocks of all other nodes. -/
structure DrawnByDepth (graph : Graph) (root : Node) (tree : List (List Node))
    (document : Document) : Prop where
  /-- The walk through the layers has come to an end: it gives no more of them if it may. -/
  ended : ∀ bound, graph.nodes.length ≤ bound → layersFrom graph bound [] [root] = .ok tree
  layers : document.blocks.filter (·.rank == some .same) = layerBlocks tree
  mem_layer_iff : ∀ depth layer, tree[depth]? = some layer →
    ∀ node, node ∈ layer ↔ node ∈ graph.nodes ∧ graph.HasDepth root.id depth node.id
  lt_length_iff : ∀ depth,
    depth < tree.length ↔ ∃ node ∈ graph.nodes, graph.HasDepth root.id depth node.id
  mem_flatten_iff : ∀ node ∈ graph.nodes,
    node ∈ tree.flatten ↔ ∃ length, graph.Descends root.id length node.id
  blocks : document.blocks =
    layerBlocks tree ++ laterBlocks (graph.nodes.filter (· ∉ tree.flatten))
  /-- The nodes of the later blocks come by ascending id. -/
  ascend : ∀ block ∈ laterBlocks (graph.nodes.filter (· ∉ tree.flatten)),
    block.nodes.Pairwise (·.id < ·.id)
  /-- Every node is in one block, and there once. -/
  once : (shown document.blocks).Perm graph.nodes
  /-- The text shows the blocks as they are. -/
  clusters : ∀ verbose,
    clusters (document.text verbose) = document.blocks.map (Block.innerLines verbose)

theorem mem_blockOf {rank : Option Rank} {nodes : List Node} {block : Block}
    (member : block ∈ blockOf rank nodes) : block = ⟨rank, nodes⟩ := by
  rw [blockOf] at member
  split at member
  · cases member
  · exact List.mem_singleton.mp member

/-- The later blocks are parts of what is left, in its order, and no layers. -/
theorem mem_laterBlocks {left : List Node} {block : Block} (member : block ∈ laterBlocks left) :
    block.rank ≠ some .same ∧ block.nodes.Sublist left := by
  simp only [laterBlocks, List.mem_append] at member
  rcases member with ((comments | symbols) | tokens) | others
  · cases mem_blockOf comments
    exact ⟨nofun, List.filter_sublist⟩
  · cases mem_blockOf symbols
    exact ⟨nofun, List.filter_sublist⟩
  · cases mem_blockOf tokens
    exact ⟨nofun, List.filter_sublist⟩
  · cases mem_blockOf others
    exact ⟨nofun, List.filter_sublist⟩

theorem filter_layerBlocks (tree : List (List Node)) (left : List Node) :
    (layerBlocks tree ++ laterBlocks left).filter (·.rank == some .same) = layerBlocks tree := by
  have layers : (layerBlocks tree).filter (·.rank == some .same) = layerBlocks tree := by
    apply List.filter_eq_self.mpr
    intro block member
    rcases List.mem_map.mp member with ⟨_, -, rfl⟩
    rfl
  have later : (laterBlocks left).filter (·.rank == some .same) = [] := by
    apply List.filter_eq_nil_iff.mpr
    intro block member
    rw [beq_iff_eq]
    exact (mem_laterBlocks member).1
  rw [List.filter_append, layers, later, List.append_nil]

/-- What is in some layer is what some way from the root leads to. -/
theorem Layered.mem_flatten_iff {tree : List (List Node)} (layered : Layered graph root 0 tree)
    {node : Node} (member : node ∈ graph.nodes) :
    node ∈ tree.flatten ↔ ∃ length, graph.Descends root length node.id := by
  constructor
  · intro inTree
    rcases List.mem_flatten.mp inTree with ⟨layer, listed, inLayer⟩
    rcases List.mem_iff_getElem?.mp listed with ⟨place, at'⟩
    exact ⟨_, ((layered.mem_iff place layer at' node).mp inLayer).2.descends⟩
  · rintro ⟨length, descends⟩
    rcases descends.exists_hasDepth with ⟨depth, -, here⟩
    rw [← Nat.zero_add depth] at here
    have reached : depth < tree.length := (layered.lt_length_iff depth).mpr ⟨node.id, here⟩
    apply List.mem_flatten.mpr
    exact ⟨tree[depth], List.getElem_mem reached,
      (layered.mem_iff depth _ (List.getElem?_eq_getElem reached) node).mpr ⟨member, here⟩⟩

theorem drawnByDepth (invariant : graph.Invariant) {root : Node} (member : root ∈ graph.nodes)
    (only : graph.root = .ok root) :
    ∃ tree document, Document.ofGraph graph = .ok document ∧
      DrawnByDepth graph root tree document := by
  have present : graph.contains root.id := Graph.contains_iff.mpr ⟨root, member, rfl⟩
  rcases layersFrom_eq_ok invariant graph.nodes.length (sound_root member) with
    ⟨tree, reached, sound⟩
  have layered : Layered graph root.id 0 tree :=
    (AtDepth.atRoot invariant member).layered invariant present _ (Nat.le_add_left _ _) reached
  have drawn : Document.ofGraph graph = .ok ⟨passes graph tree, graph.edges⟩ := by
    rw [ofGraph_of_root only, layers, reached]
    rfl
  refine ⟨tree, _, drawn, ?_⟩
  constructor
  case ended =>
    intro bound large
    rw [← layers_eq_layersFrom invariant member large]
    exact reached
  case layers =>
    rw [passes_eq]
    exact filter_layerBlocks tree _
  case mem_layer_iff =>
    intro depth layer listed node
    rw [layered.mem_iff depth layer listed, Nat.zero_add]
  case lt_length_iff =>
    intro depth
    rw [layered.lt_length_iff, Nat.zero_add]
    constructor
    · rintro ⟨id, here⟩
      rcases Graph.contains_iff.mp (here.descends.contains invariant present) with
        ⟨node, known, rfl⟩
      exact ⟨node, known, here⟩
    · rintro ⟨node, -, here⟩
      exact ⟨node.id, here⟩
  case mem_flatten_iff => exact fun node known => layered.mem_flatten_iff known
  case blocks => exact passes_eq graph tree
  case ascend =>
    intro block later
    have part := (mem_laterBlocks later).2.trans List.filter_sublist
    exact List.Pairwise.sublist part invariant.ids_ascend
  case once => exact perm_passes (invariant.nodup_ids.of_map _) sound
  case clusters => exact fun verbose => clusters_text _ verbose

/-- The drawing of a reachable graph with one root shows the nodes that ways from the root lead
to by the length of the shortest way, whatever cycles, shared children, loops and parallel
edges there are, and all other nodes by their kinds. -/
theorem drawnByDepth_of_reachable (reachable : graph.Reachable)
    (oneRoot : graph.nodes.countP (·.kind == .astRoot) = 1) :
    ∃ root ∈ graph.nodes, root.kind = .astRoot ∧
      ∃ tree document, Document.ofGraph graph = .ok document ∧
        DrawnByDepth graph root tree document := by
  rcases graph.root_eq with ⟨root, member, only, -⟩ | ⟨-, several⟩
  · exact ⟨root, member, Graph.kind_of_root only, drawnByDepth reachable.invariant member only⟩
  · exact absurd oneRoot several

/-- A syntax tree with a cycle back to its root, a child of two parents at different depths,
parallel edges and loops, and beside it nodes that no way leads to. -/
def tangle : Graph :=
  Operation.runAll (.empty "tangle" {})
    [.createDetached .astRoot "" 0 9, .createDetached .astElement "a" 0 5,
      .createDetached .token "t" 0 1, .createDetached .symbol "s" 0 0,
      .createDetached .commentLine "c" 6 9, .createDetached .astElement "b" 0 5,
      .createDetached .type "T" 0 0, .createDetached .token "u" 1 2,
      .addEdge ⟨0, 0, .astChild⟩, .addEdge ⟨0, 5, .astChild⟩, .addEdge ⟨0, 1, .astChild⟩,
      .addEdge ⟨0, 5, .astChild⟩, .addEdge ⟨1, 5, .astChild⟩, .addEdge ⟨5, 2, .astChild⟩,
      .addEdge ⟨1, 4, .astChild⟩, .addEdge ⟨2, 0, .astChild⟩, .addEdge ⟨6, 7, .astChild⟩,
      .addEdge ⟨0, 7, .nextToken⟩]

theorem drawnByDepth_tangle :
    tangle.Reachable ∧ tangle.nodes.countP (·.kind == .astRoot) = 1 ∧
      (Document.ofGraph tangle).toOption.map
          (·.blocks.map fun block => (block.rank, block.nodes.map (·.id))) =
        some [(some .same, [0]), (some .same, [5, 1]), (some .same, [2, 4]), (none, [3]),
          (some .max, [7]), (none, [6])] ∧
      ∃ root ∈ tangle.nodes, root.kind = .astRoot ∧
        ∃ tree document, Document.ofGraph tangle = .ok document ∧
          DrawnByDepth tangle root tree document := by
  have reachable : tangle.Reachable := (Graph.Reachable.empty _ _).runAll _
  exact ⟨reachable, by decide, by decide, drawnByDepth_of_reachable reachable (by decide)⟩

end Dot

end ProgramGraph
