import Mathlib.Data.List.Nodup
import ProgramGraph.Dot
import ProgramGraph.Proofs.Graph.Questions

/-!
# A drawing shows every node once

The passes that make the blocks of a drawing share one rule: a pass shows those of its
nodes that no earlier pass has shown.  So what is shown stays free of repetitions and
within the graph, whatever the passes are given and however their nodes overlap.  The
last pass is given all nodes, and with it nothing is left out.

The layers of the syntax tree keep the rule among themselves, and no layer asks for the
children of an unknown node.  As each layer shows something new, the walk through them
ends before its bound does.
-/

namespace ProgramGraph

variable {graph : Graph}

namespace Graph

/-- There is an answer for the root just when there is one root, and the answer says how
many there are otherwise. -/
theorem root_eq (graph : Graph) :
    (∃ root ∈ graph.nodes, graph.root = .ok root ∧ graph.nodes.countP (·.kind == .astRoot) = 1) ∨
      graph.root = .error
          (.rootCount graph.sourceFile (graph.nodes.countP (·.kind == .astRoot))) ∧
        graph.nodes.countP (·.kind == .astRoot) ≠ 1 := by
  have roots : graph.nodesOfKind [.astRoot] = graph.nodes.filter (·.kind == .astRoot) :=
    List.filter_congr fun node _ => by simp [Bool.beq_eq_decide_eq]
  rw [root, List.countP_eq_length_filter, ← roots]
  split
  case h_1 root only =>
    have member : root ∈ graph.nodesOfKind [.astRoot] := only ▸ List.mem_singleton_self root
    exact .inl ⟨root, (List.mem_filter.mp member).1, rfl, congrArg List.length only⟩
  case h_2 several =>
    refine .inr ⟨rfl, fun single => ?_⟩
    obtain ⟨root, only⟩ := List.length_eq_one_iff.mp single
    exact several root only

theorem countP_of_nodesOfKind {node : Node} (roots : graph.nodesOfKind [.astRoot] = [node]) :
    graph.nodes.countP (·.kind == .astRoot) = 1 := by
  have only : graph.root = .ok node := by rw [root, roots]
  rcases graph.root_eq with ⟨-, -, -, oneRoot⟩ | ⟨refused, -⟩
  · exact oneRoot
  · rw [only] at refused
    cases refused

theorem kind_of_root {node : Node} (only : graph.root = .ok node) : node.kind = .astRoot := by
  rw [root] at only
  split at only
  · next single =>
    cases only
    have member : node ∈ graph.nodesOfKind [.astRoot] := single ▸ List.mem_singleton_self node
    simpa using (List.mem_filter.mp member).2
  · cases only

end Graph

namespace Dot

/-! ## Layers -/

/-- The children of a node in the syntax tree, as the edges give them. -/
def children (graph : Graph) (node : Node) : List Node :=
  ((graph.edgesFrom node.id (some [.astChild])).map (·.target)).eraseDups.filterMap graph.node?

/-- The nodes of the layer after `layer`. -/
def layerAfter (graph : Graph) (shown layer : List Node) : List Node :=
  ((layer.flatMap (children graph)).filter fun node => !shown.contains node).eraseDups

theorem mem_nodes_of_mem_children {node child : Node} (member : child ∈ children graph node) :
    child ∈ graph.nodes := by
  obtain ⟨_, _, found⟩ := List.mem_filterMap.mp member
  exact Graph.mem_of_node? found

theorem mem_layerAfter {shown layer : List Node} {node : Node} :
    node ∈ layerAfter graph shown layer ↔
      (∃ parent ∈ layer, node ∈ children graph parent) ∧ node ∉ shown := by
  simp [layerAfter]

theorem childrenOf_eq (invariant : graph.Invariant) {node : Node} (member : node ∈ graph.nodes) :
    childrenOf graph node = .ok (children graph node) :=
  invariant.successors_eq (Graph.contains_iff.mpr ⟨node, member, rfl⟩) _

theorem mapM_childrenOf (invariant : graph.Invariant) {layer : List Node}
    (members : ∀ node ∈ layer, node ∈ graph.nodes) :
    layer.mapM (childrenOf graph) = .ok (layer.map (children graph)) := by
  induction layer with
  | nil => rfl
  | cons node layer inductionHypothesis =>
      rw [List.forall_mem_cons] at members
      rw [List.mapM_cons, childrenOf_eq invariant members.1, inductionHypothesis members.2]
      rfl

theorem layersFrom_nil (bound : Nat) (shown : List Node) :
    layersFrom graph bound shown [] = .ok [] := by
  cases bound <;> rfl

theorem layersFrom_cons (invariant : graph.Invariant) {bound : Nat} {shown : List Node}
    {first : Node} {others : List Node} (members : ∀ node ∈ first :: others, node ∈ graph.nodes) :
    layersFrom graph (bound + 1) shown (first :: others) =
      (layersFrom graph bound (shown ++ first :: others)
        (layerAfter graph (shown ++ first :: others) (first :: others))).map
          ((first :: others) :: ·) := by
  rw [layersFrom, mapM_childrenOf invariant members]
  rfl

/-- These are nodes of the graph, and none of them is there twice. -/
structure Sound (graph : Graph) (nodes : List Node) : Prop where
  nodup : nodes.Nodup
  members : ∀ node ∈ nodes, node ∈ graph.nodes

namespace Sound

variable {nodes shown layer : List Node}

theorem length_le (sound : Sound graph nodes) : nodes.length ≤ graph.nodes.length :=
  (List.subperm_of_subset sound.nodup sound.members).length_le

theorem members_layer (sound : Sound graph (shown ++ layer)) : ∀ node ∈ layer, node ∈ graph.nodes :=
  fun node member => sound.members node (List.mem_append_right _ member)

/-- The next layer has nothing of what was shown before. -/
theorem layerAfter (sound : Sound graph shown) (layer : List Node) :
    Sound graph (shown ++ Dot.layerAfter graph shown layer) := by
  constructor
  · refine sound.nodup.append (firstOccurrences_eraseDups _).nodup ?_
    intro node known member
    exact (mem_layerAfter.mp member).2 known
  · intro node member
    obtain known | next := List.mem_append.mp member
    · exact sound.members node known
    · obtain ⟨⟨_, _, child⟩, _⟩ := mem_layerAfter.mp next
      exact mem_nodes_of_mem_children child

end Sound

/-- Layers come without an error, within the graph, and free of repetitions among
themselves and with what was shown before. -/
theorem layersFrom_eq_ok (invariant : graph.Invariant) (bound : Nat) {shown layer : List Node}
    (sound : Sound graph (shown ++ layer)) :
    ∃ tree, layersFrom graph bound shown layer = .ok tree ∧
      Sound graph (shown ++ tree.flatten) := by
  induction bound generalizing shown layer with
  | zero =>
      refine ⟨[], rfl, ?_⟩
      rw [List.flatten_nil, List.append_nil]
      exact ⟨sound.nodup.of_append_left, fun node known =>
        sound.members node (List.mem_append_left _ known)⟩
  | succ bound inductionHypothesis =>
      cases layer with
      | nil => exact ⟨[], rfl, sound⟩
      | cons first others =>
          obtain ⟨tree, deeper, soundDeeper⟩ := inductionHypothesis (sound.layerAfter _)
          refine ⟨(first :: others) :: tree, ?_, ?_⟩
          · rw [layersFrom_cons invariant sound.members_layer, deeper]
            rfl
          · rwa [List.flatten_cons, ← List.append_assoc]

/-- The walk through the layers ends before its bound does: each layer has a node that was
not shown before, and there are no more nodes than the graph has. -/
theorem layersFrom_add (invariant : graph.Invariant) (bound more : Nat) {shown layer : List Node}
    (sound : Sound graph (shown ++ layer)) (enough : graph.nodes.length ≤ shown.length + bound) :
    layersFrom graph (bound + more) shown layer = layersFrom graph bound shown layer := by
  induction bound generalizing shown layer with
  | zero =>
      have all := sound.length_le
      rw [List.length_append] at all
      have nothing : layer = [] := List.eq_nil_of_length_eq_zero (by omega)
      rw [nothing, layersFrom_nil, layersFrom_nil]
  | succ bound inductionHypothesis =>
      cases layer with
      | nil => rw [layersFrom_nil, layersFrom_nil]
      | cons first others =>
          have enoughAfter : graph.nodes.length ≤ (shown ++ first :: others).length + bound := by
            rw [List.length_append, List.length_cons]
            omega
          rw [Nat.add_right_comm, layersFrom_cons invariant sound.members_layer,
            layersFrom_cons invariant sound.members_layer,
            inductionHypothesis (sound.layerAfter _) enoughAfter]

theorem sound_root {root : Node} (member : root ∈ graph.nodes) : Sound graph ([] ++ [root]) where
  nodup := List.nodup_singleton root
  members := by simpa using member

/-- Asking for more layers than the graph has nodes gives nothing new. -/
theorem layers_eq_layersFrom (invariant : graph.Invariant) {root : Node}
    (member : root ∈ graph.nodes) {bound : Nat} (large : graph.nodes.length ≤ bound) :
    layers graph root = layersFrom graph bound [] [root] := by
  obtain ⟨more, rfl⟩ := Nat.exists_eq_add_of_le large
  exact (layersFrom_add invariant _ more (sound_root member) (Nat.le_add_left _ _)).symm

/-! ## Blocks -/

/-- The nodes of blocks, in the order in which they are shown. -/
def shown (blocks : List Block) : List Node :=
  blocks.flatMap (·.nodes)

theorem shown_cons (block : Block) (blocks : List Block) :
    shown (block :: blocks) = block.nodes ++ shown blocks :=
  List.flatMap_cons

/-- A block of nodes, and no block without nodes. -/
def blockOf (rank : Option Rank) (nodes : List Node) : List Block :=
  if nodes.isEmpty then [] else [⟨rank, nodes⟩]

theorem shown_blockOf (rank : Option Rank) (nodes : List Node) :
    shown (blockOf rank nodes) = nodes := by
  rw [blockOf]
  split
  · next none => exact (List.isEmpty_iff.mp none).symm
  · exact List.append_nil nodes

theorem addBlock_eq (rank : Option Rank) (nodes : List Node) (blocks : List Block) :
    addBlock rank nodes blocks = blocks ++ blockOf rank (nodes.filter (· ∉ shown blocks)) := by
  have same : (nodes.filter fun node => !blocks.any (·.nodes.contains node)) =
      nodes.filter (· ∉ shown blocks) := by
    refine List.filter_congr fun node _ => ?_
    rw [Bool.eq_iff_iff]
    simp [shown]
  rw [addBlock, same, blockOf]
  split
  · exact (List.append_nil blocks).symm
  · rfl

theorem shown_addBlock (rank : Option Rank) (nodes : List Node) (blocks : List Block) :
    shown (addBlock rank nodes blocks) = shown blocks ++ nodes.filter (· ∉ shown blocks) := by
  rw [addBlock_eq, shown, List.flatMap_append]
  exact congrArg _ (shown_blockOf rank _)

/-- A pass over nodes of the graph adds those that were not shown before. -/
theorem Sound.addBlock {blocks : List Block} (sound : Sound graph (shown blocks))
    (rank : Option Rank) (nodes : List Node) (part : nodes.Sublist graph.nodes)
    (distinct : graph.nodes.Nodup) : Sound graph (shown (addBlock rank nodes blocks)) := by
  constructor
  · rw [shown_addBlock]
    refine sound.nodup.append ((distinct.sublist part).filter _) fun node known fresh => ?_
    exact of_decide_eq_true (List.mem_filter.mp fresh).2 known
  · intro node member
    rw [shown_addBlock, List.mem_append, List.mem_filter] at member
    obtain known | ⟨given, _⟩ := member
    · exact sound.members node known
    · exact part.subset given

/-- After a pass over all nodes of the graph nothing is left out. -/
theorem Sound.perm_addBlock {blocks : List Block} (sound : Sound graph (shown blocks))
    (rank : Option Rank) (distinct : graph.nodes.Nodup) :
    (shown (Dot.addBlock rank graph.nodes blocks)).Perm graph.nodes := by
  have all := sound.addBlock rank graph.nodes (List.Sublist.refl _) distinct
  refine (List.perm_ext_iff_of_nodup all.nodup distinct).mpr fun node => ?_
  constructor
  · exact all.members node
  · intro member
    rw [shown_addBlock, List.mem_append, List.mem_filter, decide_eq_true_iff]
    exact (Decidable.em _).imp_right fun fresh => ⟨member, fresh⟩

/-! ## Documents -/

/-- The blocks that the passes make after the layers. -/
def passes (graph : Graph) (tree : List (List Node)) : List Block :=
  addBlock none graph.nodes <| addBlock (some .max) graph.tokens <|
    addBlock none graph.symbols <| addBlock none graph.comments <|
      tree.map (⟨some .same, ·⟩)

theorem ofGraph_of_root {root : Node} (only : graph.root = .ok root) :
    Document.ofGraph graph =
      (layers graph root).map fun tree => ⟨passes graph tree, graph.edges⟩ := by
  rw [Document.ofGraph, only]
  rfl

/-- The passes after the layers show what the layers leave out. -/
theorem perm_passes {tree : List (List Node)} (distinct : graph.nodes.Nodup)
    (sound : Sound graph tree.flatten) : (shown (passes graph tree)).Perm graph.nodes := by
  have layered : shown (tree.map (⟨some .same, ·⟩)) = tree.flatten := by
    rw [shown, List.flatMap_map, List.flatMap_id']
  rw [← layered] at sound
  have comments := sound.addBlock none graph.comments List.filter_sublist distinct
  have symbols := comments.addBlock none graph.symbols List.filter_sublist distinct
  have tokens := symbols.addBlock (some .max) graph.tokens List.filter_sublist distinct
  exact tokens.perm_addBlock none distinct

/-- A drawing of a graph with one root shows every node once and has all edges. -/
theorem ofGraph_eq_ok (invariant : graph.Invariant) {root : Node} (member : root ∈ graph.nodes)
    (only : graph.root = .ok root) :
    ∃ document, Document.ofGraph graph = .ok document ∧
      (shown document.blocks).Perm graph.nodes ∧ document.edges = graph.edges := by
  obtain ⟨tree, reached, sound⟩ := layersFrom_eq_ok invariant graph.nodes.length
    (sound_root member)
  refine ⟨⟨passes graph tree, graph.edges⟩, ?_, ?_, rfl⟩
  · rw [ofGraph_of_root only, layers, reached]
    rfl
  · exact perm_passes (invariant.nodup_ids.of_map _) sound

end Dot

end ProgramGraph
