import Mathlib.Data.List.Forall2
import ProgramGraph.Proofs.Dot.Statements
import ProgramGraph.Proofs.Graph.Reordering

/-!
# Clusters of drawings

The text of a drawing shows nodes in clusters, each between a line that opens it and a line that
closes it.  Read from the text alone, the clusters are the blocks of the drawing.  They do not
depend on the order in which edges are stored: the walk through the layers meets the nodes of a
layer in an order that the edges decide, but the layer itself is the same set of nodes, and so
is what is left for each of the passes after the layers.
-/

namespace ProgramGraph

variable {graph copy : Graph} {verbose : Bool}

namespace Dot

/-! ## Clusters of a text -/

/-- The clusters of a list of lines: what comes after a line that opens a cluster, up to the
next line that closes one. -/
def clustersIn : List String → List (List String)
  | [] => []
  | line :: rest =>
      if line = " subgraph \x7b" then rest.takeWhile (· ≠ " \x7d") :: clustersIn rest
      else clustersIn rest

/-- The lines of a text within each of its clusters. -/
def clusters (text : String) : List (List String) :=
  clustersIn (linesOf text)

/-- The lines of a block between the one that opens it and the one that closes it. -/
def Block.innerLines (verbose : Bool) (block : Block) : List String :=
  rankLines block.rank ++ block.nodes.map (nodeLine verbose)

theorem clustersIn_append {lines rest : List String}
    (noOpening : ∀ line ∈ lines, line ≠ " subgraph \x7b") :
    clustersIn (lines ++ rest) = clustersIn rest := by
  induction lines with
  | nil => rfl
  | cons line lines ih =>
      rcases List.forall_mem_cons.mp noOpening with ⟨other, noOpening⟩
      rw [List.cons_append, clustersIn, if_neg other, ih noOpening]

/-- The line of a node is no part of the frame, as it says something. -/
theorem nodeLine_notMem_frameLines (verbose : Bool) (node : Node) :
    nodeLine verbose node ∉ frameLines := by
  intro member
  have silent := Statement.ofLine?_of_mem_frameLines _ member
  rw [Statement.ofLine?_nodeLine] at silent
  cases silent

theorem edgeLine_notMem_frameLines (edge : Edge) : edgeLine edge ∉ frameLines := by
  intro member
  have silent := Statement.ofLine?_of_mem_frameLines _ member
  rw [Statement.ofLine?_edgeLine] at silent
  cases silent

/-- No line within a block opens or closes one. -/
theorem Block.ne_of_mem_innerLines {block : Block} {line : String}
    (member : line ∈ block.innerLines verbose) : line ≠ " subgraph \x7b" ∧ line ≠ " \x7d" := by
  rcases List.mem_append.mp member with rank | ofNode
  · have ranks : ∀ line ∈ rankLines block.rank, line ≠ " subgraph \x7b" ∧ line ≠ " \x7d" := by
      rcases block.rank with _ | _ | _ <;> decide
    exact ranks line rank
  · rcases List.mem_map.mp ofNode with ⟨node, -, rfl⟩
    have outside := nodeLine_notMem_frameLines verbose node
    constructor
    · intro same
      exact outside (same ▸ by decide)
    · intro same
      exact outside (same ▸ by decide)

theorem clustersIn_blockLines (block : Block) (rest : List String) :
    clustersIn (block.lines verbose ++ rest) = block.innerLines verbose :: clustersIn rest := by
  have lines : block.lines verbose ++ rest =
      " subgraph \x7b" :: (block.innerLines verbose ++ ([" \x7d"] ++ rest)) := by
    simp [Block.lines, Block.innerLines]
  have within : (block.innerLines verbose ++ ([" \x7d"] ++ rest)).takeWhile (· ≠ " \x7d") =
      block.innerLines verbose := by
    rw [List.takeWhile_append_of_pos, List.singleton_append,
      List.takeWhile_cons_of_neg (by decide), List.append_nil]
    intro line member
    exact decide_eq_true (Block.ne_of_mem_innerLines member).2
  rw [lines, clustersIn, if_pos rfl, within, clustersIn_append, clustersIn_append (by decide)]
  intro line member
  exact (Block.ne_of_mem_innerLines member).1

/-- The clusters of the text of a drawing are its blocks. -/
theorem clusters_text (document : Document) (verbose : Bool) :
    clusters (document.text verbose) = document.blocks.map (Block.innerLines verbose) := by
  have blocks (blocks : List Block) (rest : List String) :
      clustersIn (blocks.flatMap (Block.lines verbose) ++ rest) =
        blocks.map (Block.innerLines verbose) ++ clustersIn rest := by
    induction blocks with
    | nil => rfl
    | cons block blocks ih =>
        rw [List.flatMap_cons, List.append_assoc, clustersIn_blockLines, ih, List.map_cons,
          List.cons_append]
  have noCluster : clustersIn (document.edges.map edgeLine ++ ["\x7d"]) = [] := by
    rw [clustersIn_append]
    · decide
    · intro line member
      rcases List.mem_map.mp member with ⟨edge, -, rfl⟩
      intro same
      exact edgeLine_notMem_frameLines edge (same ▸ by decide)
  rw [clusters, linesOf_text, Document.lines, List.append_assoc, List.append_assoc,
    clustersIn_append (by decide), blocks, noCluster, List.append_nil]

/-! ## Layers -/

theorem perm_children (same : graph.SameUpToOrder copy) (node : Node) :
    (children copy node).Perm (children graph node) :=
  same.perm_targets node.id _

/-- The next layers of equal layers are equal, up to order. -/
theorem perm_layerAfter (same : graph.SameUpToOrder copy)
    {shown shownCopy layer layerCopy : List Node} (permShown : shownCopy.Perm shown)
    (permLayer : layerCopy.Perm layer) :
    (layerAfter copy shownCopy layerCopy).Perm (layerAfter graph shown layer) := by
  have below : (layerCopy.flatMap (children copy)).Perm (layer.flatMap (children graph)) :=
    permLayer.flatMap fun node _ => perm_children same node
  have fresh : (fun node => !shownCopy.contains node) = fun node => !shown.contains node := by
    funext node
    rw [Bool.eq_iff_iff]
    simp [permShown.mem_iff]
  rw [layerAfter, layerAfter, fresh]
  exact perm_eraseDups (below.filter _)

/-- The walk through the layers gives the same layers, up to the order within each of them. -/
theorem agree_layersFrom (same : graph.SameUpToOrder copy) (bound : Nat)
    {shown shownCopy layer layerCopy : List Node} (permShown : shownCopy.Perm shown)
    (permLayer : layerCopy.Perm layer) (members : ∀ node ∈ layer, node ∈ graph.nodes) :
    Agree (List.Forall₂ List.Perm) (layersFrom copy bound shownCopy layerCopy)
      (layersFrom graph bound shown layer) := by
  induction bound generalizing shown shownCopy layer layerCopy with
  | zero => exact List.Forall₂.nil
  | succ bound ih =>
      cases layer with
      | nil =>
          rw [permLayer.eq_nil, layersFrom_nil, layersFrom_nil]
          exact List.Forall₂.nil
      | cons first others =>
          cases layerCopy with
          | nil => exact absurd permLayer.symm.eq_nil (List.cons_ne_nil first others)
          | cons firstCopy othersCopy =>
              have membersCopy : ∀ node ∈ firstCopy :: othersCopy, node ∈ copy.nodes := by
                intro node member
                rw [same.nodes]
                exact members node (permLayer.mem_iff.mp member)
              have permAll := permShown.append permLayer
              rw [layersFrom_cons same.invariant members,
                layersFrom_cons same.invariant_copy membersCopy]
              apply (ih permAll (perm_layerAfter same permAll permLayer) ?_).map
              · exact fun _ _ deeper => .cons permLayer deeper
              · intro node next
                rcases mem_layerAfter.mp next with ⟨⟨_, _, child⟩, _⟩
                exact mem_nodes_of_mem_children child

theorem agree_layers (same : graph.SameUpToOrder copy) {root : Node}
    (member : root ∈ graph.nodes) :
    Agree (List.Forall₂ List.Perm) (layers copy root) (layers graph root) := by
  rw [layers, layers, same.nodes]
  apply agree_layersFrom same _ (.refl _) (.refl _)
  simpa using member

/-! ## Blocks -/

/-- Two blocks show the same nodes in the same place. -/
structure Block.Similar (block other : Block) : Prop where
  rank : block.rank = other.rank
  nodes : block.nodes.Perm other.nodes

theorem Block.Similar.innerLines {block other : Block} (similar : block.Similar other)
    (verbose : Bool) : (block.innerLines verbose).Perm (other.innerLines verbose) := by
  rw [Block.innerLines, Block.innerLines, similar.rank]
  exact (similar.nodes.map _).append_left _

/-- A pass over the same nodes leaves out the same nodes. -/
theorem similar_addBlock {blocks others : List Block}
    (similar : List.Forall₂ Block.Similar blocks others) (rank : Option Rank)
    (nodes : List Node) :
    List.Forall₂ Block.Similar (addBlock rank nodes blocks) (addBlock rank nodes others) := by
  have shows (node : Node) : blocks.any (·.nodes.contains node) =
      others.any (·.nodes.contains node) := by
    induction similar with
    | nil => rfl
    | cons first _ ih =>
        rw [List.any_cons, List.any_cons, ih, Bool.eq_iff_iff]
        simp [first.nodes.mem_iff]
  rw [addBlock, addBlock]
  simp only [shows]
  split
  · exact similar
  · exact List.rel_append similar (.cons ⟨rfl, .refl _⟩ .nil)

theorem similar_passes (same : graph.SameUpToOrder copy) {tree treeCopy : List (List Node)}
    (similar : List.Forall₂ List.Perm treeCopy tree) :
    List.Forall₂ Block.Similar (passes copy treeCopy) (passes graph tree) := by
  have layered : List.Forall₂ Block.Similar (treeCopy.map (⟨some .same, ·⟩))
      (tree.map (⟨some .same, ·⟩)) := by
    rw [List.forall₂_map_left_iff, List.forall₂_map_right_iff]
    exact similar.imp fun _ _ perm => ⟨rfl, perm⟩
  rw [passes, passes, same.nodes, Graph.tokens, Graph.tokens, Graph.symbols, Graph.symbols,
    Graph.comments, Graph.comments, same.nodesOfKind, same.nodesOfKind, same.nodesOfKind]
  exact similar_addBlock (similar_addBlock (similar_addBlock (similar_addBlock layered _ _) _ _)
    _ _) _ _

/-- Two drawings whose texts show the same nodes in the same clusters. -/
def SameClusters (document other : Document) : Prop :=
  ∀ verbose, List.Forall₂ List.Perm (clusters (document.text verbose))
    (clusters (other.text verbose))

theorem agree_ofGraph (same : graph.SameUpToOrder copy) :
    Agree SameClusters (Document.ofGraph copy) (Document.ofGraph graph) := by
  rcases graph.root_eq with ⟨root, member, only, -⟩ | ⟨refused, -⟩
  · rw [ofGraph_of_root only, ofGraph_of_root (same.root.trans only)]
    apply (agree_layers same member).map
    intro treeCopy tree similar verbose
    rw [clusters_text, clusters_text, List.forall₂_map_left_iff, List.forall₂_map_right_iff]
    exact (similar_passes same similar).imp fun _ _ blocks => blocks.innerLines verbose
  · rw [Document.ofGraph, Document.ofGraph, same.root, refused]
    exact rfl

end Dot

/-! ## Records in another order -/

namespace Graph

/-- What the order of the lists of a record does not change in its graph. -/
structure SameMeaning (graph copy : Graph) : Prop where
  sourceFile : copy.sourceFile = graph.sourceFile
  nodes : copy.nodes = graph.nodes
  nextId : copy.nextId = graph.nextId
  edges : copy.edges.Perm graph.edges
  /-- Neighbours come once each, so lists of them that agree up to order are equal sets. -/
  successors : ∀ id kinds, Agree List.Perm (copy.successors id kinds) (graph.successors id kinds)
  predecessors : ∀ id kinds,
    Agree List.Perm (copy.predecessors id kinds) (graph.predecessors id kinds)
  root : copy.root = graph.root
  nodes_prune : copy.prune.2.nodes = graph.prune.2.nodes
  count_prune : copy.prune.1 = graph.prune.1
  /-- The layers of the syntax tree hold the same nodes, each layer under its number. -/
  layers : ∀ root ∈ graph.nodes,
    Agree (List.Forall₂ List.Perm) (Dot.layers copy root) (Dot.layers graph root)
  /-- So do the clusters of the texts, those of the layers and those after them. -/
  drawing : Agree Dot.SameClusters (Dot.Document.ofGraph copy) (Dot.Document.ofGraph graph)

theorem SameUpToOrder.sameMeaning (same : graph.SameUpToOrder copy) : graph.SameMeaning copy where
  sourceFile := same.sourceFile
  nodes := same.nodes
  nextId := same.nextId
  edges := same.edges
  successors := same.successors
  predecessors := same.predecessors
  root := same.root
  nodes_prune := same.nodes_prune
  count_prune := same.count_prune
  layers _ member := Dot.agree_layers same member
  drawing := Dot.agree_ofGraph same

/-- A record whose nodes and edges are put in another order is loaded too, into a graph of the
same meaning; if only its nodes are, into the same graph. -/
theorem sameMeaning_of_reordered {record other : Record} (reordered : record.Reordered other)
    (loaded : ofRecord record = .ok graph) :
    ∃ copy, ofRecord other = .ok copy ∧ graph.SameMeaning copy ∧
      (other.edges = record.edges → copy = graph) := by
  rcases exists_ofRecord_of_reordered reordered loaded with ⟨copy, loadedCopy, same⟩
  refine ⟨copy, loadedCopy, same.sameMeaning, ?_⟩
  intro edges
  rw [ofRecord_of_perm_nodes loaded reordered.sourceFile reordered.nodes edges] at loadedCopy
  exact (Except.ok.inj loadedCopy).symm

/-- A record of a tree with two nodes in its second layer, one of them to be pruned. -/
def twoBranches : Record where
  sourceFile := "tree"
  nodes := [⟨4, .token, "t", 0, 1, 1, 1⟩, ⟨0, .astRoot, "", 0, 1, 1, 1⟩,
    ⟨7, .astElement, "b", 0, 1, 1, 1⟩, ⟨2, .astElement, "a", 0, 1, 1, 1⟩]
  edges := [⟨0, 7, .astChild⟩, ⟨0, 2, .astChild⟩, ⟨2, 4, .astChild⟩, ⟨0, 7, .astChild⟩]

/-- The same record with both lists turned round. -/
def twoBranchesReversed : Record :=
  { twoBranches with nodes := twoBranches.nodes.reverse, edges := twoBranches.edges.reverse }

theorem sameMeaning_reversed :
    twoBranches.Reordered twoBranchesReversed ∧
      ∃ graph copy, ofRecord twoBranches = .ok graph ∧ ofRecord twoBranchesReversed = .ok copy ∧
        graph.SameMeaning copy := by
  have reordered : twoBranches.Reordered twoBranchesReversed :=
    ⟨rfl, List.reverse_perm _, List.reverse_perm _⟩
  have accepted : (ofRecord twoBranches).isOk := by decide
  cases loaded : ofRecord twoBranches with
  | error cause =>
      rw [loaded] at accepted
      cases accepted
  | ok graph =>
      rcases sameMeaning_of_reordered reordered loaded with ⟨copy, loadedCopy, same, -⟩
      exact ⟨reordered, graph, copy, rfl, loadedCopy, same⟩

end Graph

end ProgramGraph
