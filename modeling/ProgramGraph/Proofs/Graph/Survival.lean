import Mathlib.Data.Fintype.Card
import Mathlib.Logic.Relation
import ProgramGraph.Proofs.Graph.Questions
import ProgramGraph.Proofs.Graph.Steps

/-!
# What survives pruning

Pruning looks at one leaf after the other, but what it leaves does not depend on that: a node
survives just when it is *supported*, that is, when from it edges lead to a node of a kind
that is never pruned, or to a cycle.

A supported node is no leaf, and taking out a leaf breaks none of the paths that support the
others; so no supported node is ever taken.  The other way round, in a graph without prunable
leaves an unsupported node would begin an endless path without a cycle, and a finite graph has
none.
-/

namespace ProgramGraph.Graph

open Relation

variable {graph last : Graph} {id other source target : NodeId} {removed : List NodeId}

/-- Some edge leads from one node to another. -/
def Leads (graph : Graph) (source target : NodeId) : Prop :=
  ∃ edge ∈ graph.edges, edge.source = source ∧ edge.target = target

/-- A node of a kind that is never pruned. -/
def Kept (graph : Graph) (id : NodeId) : Prop :=
  ∃ node ∈ graph.nodes, node.id = id ∧ ¬node.kind.isPrunable

/-- From a node edges lead to a node that is never pruned, or to a cycle. -/
def Supported (graph : Graph) (id : NodeId) : Prop :=
  ∃ last, ReflTransGen graph.Leads id last ∧
    (graph.Kept last ∨ TransGen graph.Leads last last)

namespace Supported

theorem of_kept (kept : graph.Kept id) : graph.Supported id :=
  ⟨id, .refl, .inl kept⟩

theorem head (leads : graph.Leads id other) (supported : graph.Supported other) :
    graph.Supported id := by
  obtain ⟨last, path, support⟩ := supported
  exact ⟨last, path.head leads, support⟩

theorem of_path (path : ReflTransGen graph.Leads id other) (supported : graph.Supported other) :
    graph.Supported id := by
  obtain ⟨last, rest, support⟩ := supported
  exact ⟨last, path.trans rest, support⟩

theorem of_cycle (cycle : TransGen graph.Leads id id) : graph.Supported id :=
  ⟨id, .refl, .inr cycle⟩

/-- More nodes and more edges give more support. -/
theorem mono (leads : ∀ {source target}, last.Leads source target → graph.Leads source target)
    (kept : ∀ {id}, last.Kept id → graph.Kept id) (supported : last.Supported id) :
    graph.Supported id := by
  obtain ⟨final, path, support⟩ := supported
  refine ⟨final, ReflTransGen.mono (fun _ _ => leads) _ _ path, ?_⟩
  rcases support with isKept | cycle
  · exact .inl (kept isKept)
  · exact .inr (TransGen.mono (fun _ _ => leads) _ _ cycle)

end Supported

/-! ## Supported nodes are not taken -/

theorem Invariant.contains_of_leads (invariant : graph.Invariant)
    (leads : graph.Leads source target) : graph.contains source ∧ graph.contains target := by
  obtain ⟨edge, member, rfl, rfl⟩ := leads
  exact invariant.ends_of_mem_edges member

/-- Nothing leads away from a leaf. -/
theorem Invariant.not_leads_of_leaf (invariant : graph.Invariant)
    (leaf : id ∈ graph.prunableLeaves) : ¬graph.Leads id target := by
  rintro ⟨edge, member, source, -⟩
  obtain ⟨_, _, _, _, noSlots⟩ := mem_prunableLeaves.mp leaf
  exact invariant.slotsFrom_eq_nil_iff.mp noSlots edge member source

theorem Invariant.not_supported_of_leaf (invariant : graph.Invariant)
    (leaf : id ∈ graph.prunableLeaves) : ¬graph.Supported id := by
  rintro ⟨last, path, support⟩
  rcases path.cases_head with rfl | ⟨_, leads, _⟩
  · rcases support with ⟨kept, keptMember, keptId, notPrunable⟩ | cycle
    · obtain ⟨node, member, nodeId, prunable, _⟩ := mem_prunableLeaves.mp leaf
      have same : kept = node := List.inj_on_of_nodup_map invariant.nodup_ids keptMember member
        (keptId.trans nodeId.symm)
      exact notPrunable (same ▸ prunable)
    · obtain ⟨_, leads, _⟩ := TransGen.head'_iff.mp cycle
      exact invariant.not_leads_of_leaf leaf leads
  · exact invariant.not_leads_of_leaf leaf leads

/-- An edge to a supported node stays when a leaf is taken out. -/
theorem Invariant.leads_withoutNode (invariant : graph.Invariant)
    (leaf : id ∈ graph.prunableLeaves) (leads : graph.Leads source target)
    (supported : graph.Supported target) : (graph.withoutNode id).Leads source target := by
  have sourceOther : source ≠ id := by
    rintro rfl
    exact invariant.not_leads_of_leaf leaf leads
  have targetOther : target ≠ id := by
    rintro rfl
    exact invariant.not_supported_of_leaf leaf supported
  obtain ⟨edge, member, rfl, rfl⟩ := leads
  refine ⟨edge, ?_, rfl, rfl⟩
  rw [edges_withoutNode invariant.toIndexed (contains_of_mem_prunableLeaves leaf)]
  exact List.mem_filter.mpr ⟨member, by simp [Edge.touches, sourceOther, targetOther]⟩

/-- So do all edges of a path to a supported node. -/
theorem Invariant.path_withoutNode (invariant : graph.Invariant)
    (leaf : id ∈ graph.prunableLeaves) (path : ReflTransGen graph.Leads source target)
    (supported : graph.Supported target) :
    ReflTransGen (graph.withoutNode id).Leads source target := by
  induction path using ReflTransGen.head_induction_on with
  | refl => exact .refl
  | head leads rest ih =>
      exact ih.head (invariant.leads_withoutNode leaf leads (supported.of_path rest))

theorem Invariant.supported_withoutNode (invariant : graph.Invariant)
    (leaf : id ∈ graph.prunableLeaves) (supported : graph.Supported other) :
    (graph.withoutNode id).Supported other := by
  obtain ⟨last, path, support⟩ := supported
  rcases support with kept | cycle
  · refine ⟨last, invariant.path_withoutNode leaf path (.of_kept kept), .inl ?_⟩
    obtain ⟨node, member, rfl, notPrunable⟩ := kept
    refine ⟨node, ?_, rfl, notPrunable⟩
    have different : node.id ≠ id := by
      rintro rfl
      exact invariant.not_supported_of_leaf leaf (.of_kept ⟨node, member, rfl, notPrunable⟩)
    simp [member, different]
  · have onCycle := Supported.of_cycle cycle
    refine ⟨last, invariant.path_withoutNode leaf path onCycle, .inr ?_⟩
    obtain ⟨next, leads, back⟩ := TransGen.head'_iff.mp cycle
    exact .head' (invariant.leads_withoutNode leaf leads (onCycle.of_path back))
      (invariant.path_withoutNode leaf back onCycle)

theorem LeafRemovals.not_mem_of_supported (removals : LeafRemovals graph removed last)
    (invariant : graph.Invariant) (supported : graph.Supported id) : id ∉ removed := by
  induction removals with
  | nil graph => exact List.not_mem_nil
  | cons leaf _ ih =>
      have present := contains_of_mem_prunableLeaves leaf
      intro taken
      rcases List.mem_cons.mp taken with rfl | later
      · exact invariant.not_supported_of_leaf leaf supported
      · exact ih (invariant.withoutNode present)
          (invariant.supported_withoutNode leaf supported) later

/-! ## Nodes that are left are supported -/

/-- Going on from an unsupported node. -/
private def Strays (graph : Graph) (id other : {id // id ∈ graph.nodes.map (·.id)}) : Prop :=
  graph.Leads id other ∧ ¬graph.Supported id

/-- In a finite graph nothing strays for ever, as a path that comes back to a node is a cycle. -/
private theorem wellFounded_strays (graph : Graph) : WellFounded (flip graph.Strays) := by
  have noCycle : ∀ id, ¬TransGen graph.Strays id id := by
    intro id cycle
    obtain ⟨_, ⟨_, unsupported⟩, _⟩ := TransGen.head'_iff.mp cycle
    apply unsupported
    apply Supported.of_cycle
    exact TransGen.lift (r := graph.Strays) Subtype.val (fun _ _ strays => strays.1) _ _ cycle
  have irreflexive : Std.Irrefl (TransGen (flip graph.Strays)) :=
    ⟨fun id cycle => noCycle id (transGen_swap.mp cycle)⟩
  have wellFounded := Finite.wellFounded_of_trans_of_irrefl (TransGen (flip graph.Strays))
  exact Subrelation.wf (fun strays => TransGen.single strays) wellFounded

/-- A node that is prunable and yet no leaf has an edge to go on by. -/
theorem Invariant.exists_edge_of_no_leaves (invariant : graph.Invariant)
    (noLeaves : graph.prunableLeaves = []) {node : Node} (member : node ∈ graph.nodes)
    (prunable : node.kind.isPrunable) : ∃ edge ∈ graph.edges, edge.source = node.id := by
  by_contra stuck
  have leaf : node.id ∈ graph.prunableLeaves := by
    apply mem_prunableLeaves.mpr
    refine ⟨node, member, rfl, prunable, invariant.slotsFrom_eq_nil_iff.mpr ?_⟩
    exact fun edge live leaves => stuck ⟨edge, live, leaves⟩
  rw [noLeaves] at leaf
  cases leaf

theorem Invariant.supported_of_no_leaves (invariant : graph.Invariant)
    (noLeaves : graph.prunableLeaves = []) (present : graph.contains id) :
    graph.Supported id := by
  have listed : ∀ {id}, graph.contains id → id ∈ graph.nodes.map (·.id) := fun present =>
    List.mem_map.mpr (contains_iff.mp present)
  suffices all : ∀ id : {id // id ∈ graph.nodes.map (·.id)}, graph.Supported id from
    all ⟨id, listed present⟩
  intro id
  induction id using graph.wellFounded_strays.induction with
  | h id ih =>
      by_contra unsupported
      obtain ⟨node, member, same⟩ := List.mem_map.mp id.2
      have prunable : node.kind.isPrunable := by
        by_contra notPrunable
        exact unsupported (.of_kept ⟨node, member, same, notPrunable⟩)
      obtain ⟨edge, live, leaves⟩ := invariant.exists_edge_of_no_leaves noLeaves member prunable
      have leads : graph.Leads id.1 edge.target := ⟨edge, live, leaves.trans same, rfl⟩
      have targetListed := listed (invariant.contains_of_leads leads).2
      exact unsupported (.head leads (ih ⟨edge.target, targetListed⟩ ⟨leads, unsupported⟩))

/-! ## The pruned graph -/

namespace LeafRemovals

theorem contains_iff_of_contains (removals : LeafRemovals graph removed last)
    (present : graph.contains id) : last.contains id ↔ id ∉ removed :=
  (removals.contains_iff id).trans (and_iff_right present)

/-- The nodes that are left are as they were and in the same order. -/
theorem nodes_eq (removals : LeafRemovals graph removed last) :
    last.nodes = graph.nodes.filter (last.contains ·.id) := by
  have kept : last.nodes = graph.nodes.filter fun node => node.id ∉ removed := by
    induction removals with
    | nil graph => simp
    | cons leaf _ ih =>
        rw [ih, nodes_withoutNode, List.filter_filter]
        simp [Bool.and_comm]
  rw [kept]
  apply List.filter_congr
  intro node member
  have present : graph.contains node.id := Graph.contains_iff.mpr ⟨node, member, rfl⟩
  rw [Bool.eq_iff_iff, decide_eq_true_eq, removals.contains_iff_of_contains present]

/-- An edge is left if both its ends are. -/
theorem edges_eq (removals : LeafRemovals graph removed last) (invariant : graph.Invariant) :
    last.edges =
      graph.edges.filter fun edge => last.contains edge.source && last.contains edge.target := by
  have kept : last.edges =
      graph.edges.filter fun edge => edge.source ∉ removed ∧ edge.target ∉ removed := by
    induction removals with
    | nil graph => simp
    | cons leaf _ ih =>
        have present := contains_of_mem_prunableLeaves leaf
        rw [ih (invariant.withoutNode present), edges_withoutNode invariant.toIndexed present,
          List.filter_filter]
        apply List.filter_congr
        intro edge _
        rw [Bool.eq_iff_iff]
        simp only [Edge.touches, List.mem_cons, Bool.and_eq_true, decide_eq_true_eq,
          Bool.not_eq_true', Bool.or_eq_false_iff, beq_eq_false_iff_ne]
        tauto
  rw [kept]
  apply List.filter_congr
  intro edge member
  obtain ⟨source, target⟩ := invariant.ends_of_mem_edges member
  rw [Bool.eq_iff_iff, decide_eq_true_eq, Bool.and_eq_true,
    removals.contains_iff_of_contains source, removals.contains_iff_of_contains target]

/-- Removals that go on until no leaf is left take all nodes but the supported ones. -/
theorem contains_iff_of_no_leaves (removals : LeafRemovals graph removed last)
    (invariant : graph.Invariant) (noLeaves : last.prunableLeaves = []) :
    last.contains id ↔ graph.contains id ∧ graph.Supported id := by
  constructor
  · intro survives
    refine ⟨((removals.contains_iff id).mp survives).1, ?_⟩
    have supported := (removals.invariant invariant).supported_of_no_leaves noLeaves survives
    refine supported.mono ?_ ?_
    · rintro source target ⟨edge, member, leads⟩
      rw [removals.edges_eq invariant] at member
      exact ⟨edge, List.mem_of_mem_filter member, leads⟩
    · rintro id ⟨node, member, kept⟩
      rw [removals.nodes_eq] at member
      exact ⟨node, List.mem_of_mem_filter member, kept⟩
  · rintro ⟨present, supported⟩
    exact (removals.contains_iff id).mpr
      ⟨present, removals.not_mem_of_supported invariant supported⟩

end LeafRemovals

namespace Invariant

/-- Pruning takes all nodes but the supported ones. -/
theorem contains_prune_iff (invariant : graph.Invariant) :
    graph.prune.2.contains id ↔ graph.contains id ∧ graph.Supported id := by
  obtain ⟨removed, removals, _, noLeaves⟩ := prune_removals invariant
  exact removals.contains_iff_of_no_leaves invariant noLeaves

theorem nodes_prune (invariant : graph.Invariant) :
    graph.prune.2.nodes = graph.nodes.filter (graph.prune.2.contains ·.id) := by
  obtain ⟨_, removals, _⟩ := prune_removals invariant
  exact removals.nodes_eq

theorem edges_prune (invariant : graph.Invariant) :
    graph.prune.2.edges = graph.edges.filter fun edge =>
      graph.prune.2.contains edge.source && graph.prune.2.contains edge.target := by
  obtain ⟨_, removals, _⟩ := prune_removals invariant
  exact removals.edges_eq invariant

theorem edgesFrom_prune (invariant : graph.Invariant) (id : NodeId)
    (kinds : Option (List EdgeKind)) :
    graph.prune.2.edgesFrom id kinds = (graph.edgesFrom id kinds).filter fun edge =>
      graph.prune.2.contains edge.source && graph.prune.2.contains edge.target := by
  simp only [edgesFrom, invariant.edges_prune, List.filter_filter, Bool.and_comm]

theorem edgesInto_prune (invariant : graph.Invariant) (id : NodeId)
    (kinds : Option (List EdgeKind)) :
    graph.prune.2.edgesInto id kinds = (graph.edgesInto id kinds).filter fun edge =>
      graph.prune.2.contains edge.source && graph.prune.2.contains edge.target := by
  simp only [edgesInto, invariant.edges_prune, List.filter_filter, Bool.and_comm]

/-- A node of a kind that is never pruned survives. -/
theorem mem_nodes_prune_of_kept (invariant : graph.Invariant) {node : Node}
    (member : node ∈ graph.nodes) (kept : ¬node.kind.isPrunable) :
    node ∈ graph.prune.2.nodes := by
  rw [invariant.nodes_prune]
  apply List.mem_filter.mpr
  refine ⟨member, invariant.contains_prune_iff.mpr ?_⟩
  exact ⟨contains_iff.mpr ⟨node, member, rfl⟩, .of_kept ⟨node, member, rfl, kept⟩⟩

/-- Of kinds that are never pruned all nodes survive. -/
theorem nodesOfKind_prune (invariant : graph.Invariant) {kinds : List NodeKind}
    (kept : ∀ kind ∈ kinds, ¬kind.isPrunable) :
    graph.prune.2.nodesOfKind kinds = graph.nodesOfKind kinds := by
  rw [nodesOfKind, nodesOfKind, invariant.nodes_prune, List.filter_filter]
  apply List.filter_congr
  intro node member
  rw [Bool.and_eq_left_iff_imp]
  intro listed
  have survives := invariant.mem_nodes_prune_of_kept member
    (kept node.kind (List.contains_iff_mem.mp listed))
  exact contains_iff.mpr ⟨node, survives, rfl⟩

end Invariant

end ProgramGraph.Graph
