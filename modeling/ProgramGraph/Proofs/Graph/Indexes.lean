import ProgramGraph.Proofs.Graph.Slots

/-!
# Indexes and the count of edges

Beside the slots a graph keeps an index for either end of its edges and the number
of its edges.  `IndexedBy` says that one index agrees with the slots at every node
of the graph and holds nothing for an id that is not in it; `Indexed` says this of
both indexes and that the count is right.

Neither asks that the ends of an edge are nodes of the graph.  While a node is being
removed they are not: the node goes first and its edges follow slot by slot, and all
the while the indexes agree with the slots at the nodes that are left.
-/

namespace ProgramGraph.Graph

variable {graph : Graph} {index : Table NodeId (List Slot)} {endOf : Edge → NodeId}
variable {edge : Edge} {slot : Slot} {id : NodeId}

/-- The index lists the slots of the edges with a node at the given end, for every
node of the graph and for no other id. -/
structure IndexedBy (graph : Graph) (index : Table NodeId (List Slot))
    (endOf : Edge → NodeId) : Prop where
  listed : ∀ id, graph.contains id →
    (index.get? id).getD [] = graph.slotsWhere fun edge => endOf edge == id
  unlisted : ∀ id, ¬graph.contains id → index.get? id = none

/-- Both indexes and the count of edges agree with the slots. -/
structure Indexed (graph : Graph) : Prop where
  outgoing : graph.IndexedBy graph.outgoing Edge.source
  incoming : graph.IndexedBy graph.incoming Edge.target
  counted : graph.liveCount = (graph.slotsWhere fun _ => true).length

/-! ## Nodes of a changed graph -/

@[simp]
theorem contains_discardSlots (graph : Graph) (gone : List Slot) (id : NodeId) :
    (graph.discardSlots gone).contains id = graph.contains id := by
  obtain ⟨_, _, _, _, frame⟩ := graph.discardSlots_frame gone
  rw [frame]
  rfl

@[simp]
theorem contains_discardSlot (graph : Graph) (slot : Slot) (id : NodeId) :
    (graph.discardSlot slot).contains id = graph.contains id :=
  contains_discardSlots graph [slot] id

theorem contains_dropNode (graph : Graph) (id other : NodeId) :
    (graph.dropNode id).contains other ↔ graph.contains other ∧ other ≠ id := by
  simp only [contains_iff, dropNode, List.mem_filter, decide_eq_true_eq]
  constructor
  · rintro ⟨node, ⟨member, kept⟩, rfl⟩
    exact ⟨⟨node, member, rfl⟩, kept⟩
  · rintro ⟨⟨node, member, rfl⟩, kept⟩
    exact ⟨node, ⟨member, kept⟩, rfl⟩

/-! ## One index -/

theorem getD_indexSlot (index : Table NodeId (List Slot)) (id other : NodeId) (slot : Slot) :
    ((indexSlot index id slot).get? other).getD [] =
      (index.get? other).getD [] ++ if id = other then [slot] else [] := by
  rw [indexSlot, Table.get?_set]
  by_cases same : id = other
  · subst same
    simp
  · simp [same]

theorem get?_unindexSlot (index : Table NodeId (List Slot)) (id other : NodeId) (slot : Slot) :
    (unindexSlot index id slot).get? other =
      if id = other then (index.get? other).map (·.filter (· ≠ slot))
      else index.get? other := by
  unfold unindexSlot
  by_cases same : id = other
  · subst same
    cases stored : index.get? id <;> simp [stored]
  · cases stored : index.get? id <;> simp [same]

namespace IndexedBy

theorem empty (sourceFile : String) (lines : LineMap) (endOf : Edge → NodeId) :
    (Graph.empty sourceFile lines).IndexedBy {} endOf where
  listed id present := by simp [Graph.empty, contains] at present
  unlisted id _ := rfl

theorem pushEdge (indexed : graph.IndexedBy index endOf)
    (present : graph.contains (endOf edge)) :
    (graph.pushEdge edge).IndexedBy (indexSlot index (endOf edge) graph.slots.size) endOf where
  listed id inside := by
    rw [getD_indexSlot, indexed.listed id inside, slotsWhere_pushEdge]
    simp
  unlisted id outside := by
    have other : endOf edge ≠ id := by
      rintro rfl
      exact outside present
    rw [indexSlot, Table.get?_set, if_neg other]
    exact indexed.unlisted id outside

theorem discardSlot (indexed : graph.IndexedBy index endOf)
    (live : graph.edge? slot = some edge) :
    (graph.discardSlot slot).IndexedBy (unindexSlot index (endOf edge) slot) endOf where
  listed id inside := by
    rw [contains_discardSlot] at inside
    rw [slotsWhere_discardSlot, ← indexed.listed id inside, get?_unindexSlot]
    by_cases here : endOf edge = id
    · rw [if_pos here]
      cases index.get? id <;> rfl
    · rw [if_neg here, indexed.listed id inside]
      -- The slot holds an edge with another end, so it is not in this list.
      refine (List.filter_eq_self.mpr fun other member => ?_).symm
      obtain ⟨found, stored, atEnd⟩ := mem_slotsWhere.mp member
      rw [decide_eq_true_eq]
      rintro rfl
      rw [live] at stored
      cases stored
      exact here (beq_iff_eq.mp atEnd)
  unlisted id outside := by
    rw [contains_discardSlot] at outside
    rw [get?_unindexSlot, indexed.unlisted id outside]
    split <;> rfl

theorem dropNode (indexed : graph.IndexedBy index endOf) (id : NodeId) :
    (graph.dropNode id).IndexedBy (index.erase id) endOf where
  listed other inside := by
    obtain ⟨present, different⟩ := (contains_dropNode graph id other).mp inside
    rw [Table.get?_erase, if_neg (Ne.symm different)]
    exact indexed.listed other present
  unlisted other outside := by
    rw [Table.get?_erase]
    by_cases same : id = other
    · rw [if_pos same]
    · rw [if_neg same]
      apply indexed.unlisted
      intro present
      exact outside ((contains_dropNode graph id other).mpr ⟨present, Ne.symm same⟩)

/-- A node that no edge touches may be added: nothing is listed for it. -/
theorem extend {grown : Graph} (indexed : graph.IndexedBy index endOf)
    (slots : grown.slots = graph.slots) (fresh : ¬graph.contains id)
    (nodes : ∀ other, grown.contains other ↔ other = id ∨ graph.contains other)
    (untouched : ∀ slot edge, graph.edge? slot = some edge → endOf edge ≠ id) :
    grown.IndexedBy index endOf where
  listed other inside := by
    have same : grown.slotsWhere (endOf · == other) = graph.slotsWhere (endOf · == other) := by
      simp only [slotsWhere, edge?, slots]
    rw [same]
    rcases (nodes other).mp inside with rfl | present
    · rw [indexed.unlisted other fresh, slotsWhere_eq_nil]
      · rfl
      · intro slot edge live atEnd
        exact untouched slot edge live (beq_iff_eq.mp atEnd)
    · exact indexed.listed other present
  unlisted other outside :=
    indexed.unlisted other fun present => outside ((nodes other).mpr (Or.inr present))

end IndexedBy

/-! ## Both indexes and the count -/

/-- Striking a slot that holds an edge shortens the list of all of them by one. -/
theorem length_slotsWhere_discardSlot (live : graph.edge? slot = some edge) :
    ((graph.discardSlot slot).slotsWhere fun _ => true).length + 1 =
      (graph.slotsWhere fun _ => true).length := by
  have member : slot ∈ graph.slotsWhere fun _ => true :=
    mem_slotsWhere.mpr ⟨edge, live, rfl⟩
  have distinct : (graph.slotsWhere fun _ => true).Nodup :=
    (slotsWhere_ascend graph _).imp Nat.ne_of_lt
  have positive : 0 < (graph.slotsWhere fun _ => true).length :=
    List.length_pos_of_mem member
  have struck : ((graph.slotsWhere fun _ => true).filter (· ≠ slot)).length =
      (graph.slotsWhere fun _ => true).length - 1 := by
    rw [← List.length_erase_of_mem member, distinct.erase_eq_filter slot]
    congr 1
    apply List.filter_congr
    intro other _
    by_cases same : other = slot <;> simp [same]
  rw [slotsWhere_discardSlot, struck]
  omega

namespace Indexed

theorem empty (sourceFile : String) (lines : LineMap) :
    (Graph.empty sourceFile lines).Indexed where
  outgoing := .empty sourceFile lines _
  incoming := .empty sourceFile lines _
  counted := rfl

theorem pushEdge (indexed : graph.Indexed) (source : graph.contains edge.source)
    (target : graph.contains edge.target) : (graph.pushEdge edge).Indexed where
  outgoing := indexed.outgoing.pushEdge source
  incoming := indexed.incoming.pushEdge target
  counted := by
    rw [slotsWhere_pushEdge, List.length_append, ← indexed.counted]
    rfl

/-- An edge that is removed was counted, so the count does not fall below zero. -/
theorem liveCount_discardSlot (indexed : graph.Indexed)
    (live : graph.edge? slot = some edge) :
    (graph.discardSlot slot).liveCount + 1 = graph.liveCount := by
  have shorter := length_slotsWhere_discardSlot live
  have counted := indexed.counted
  have emptied : (graph.discardSlot slot).liveCount = graph.liveCount - 1 := by
    simp [Graph.discardSlot, removeEdgeAt, live]
  omega

theorem discardSlot (indexed : graph.Indexed) (slot : Slot) :
    (graph.discardSlot slot).Indexed := by
  cases live : graph.edge? slot with
  | none =>
      have same : graph.discardSlot slot = graph := by
        simp [Graph.discardSlot, removeEdgeAt, live]
      rw [same]
      exact indexed
  | some edge =>
      have outgoing : (graph.discardSlot slot).outgoing =
          unindexSlot graph.outgoing edge.source slot := by
        simp [Graph.discardSlot, removeEdgeAt, live]
      have incoming : (graph.discardSlot slot).incoming =
          unindexSlot graph.incoming edge.target slot := by
        simp [Graph.discardSlot, removeEdgeAt, live]
      constructor
      · rw [outgoing]
        exact indexed.outgoing.discardSlot live
      · rw [incoming]
        exact indexed.incoming.discardSlot live
      · have shorter := length_slotsWhere_discardSlot live
        have fewer := indexed.liveCount_discardSlot live
        have counted := indexed.counted
        omega

theorem discardSlots (indexed : graph.Indexed) (gone : List Slot) :
    (graph.discardSlots gone).Indexed := by
  induction gone generalizing graph with
  | nil => exact indexed
  | cons slot rest ih => exact ih (indexed.discardSlot slot)

theorem dropNode (indexed : graph.Indexed) (id : NodeId) : (graph.dropNode id).Indexed where
  outgoing := indexed.outgoing.dropNode id
  incoming := indexed.incoming.dropNode id
  counted := indexed.counted

/-- Only the nodes, the slots, the indexes and the count matter. -/
theorem congr {other : Graph} (indexed : graph.Indexed) (nodes : other.nodes = graph.nodes)
    (slots : other.slots = graph.slots) (outgoing : other.outgoing = graph.outgoing)
    (incoming : other.incoming = graph.incoming)
    (liveCount : other.liveCount = graph.liveCount) : other.Indexed := by
  have sameNodes : ∀ id, other.contains id = graph.contains id := by
    simp [contains, nodes]
  have sameSlots : ∀ keep, other.slotsWhere keep = graph.slotsWhere keep := by
    simp [slotsWhere, edge?, slots]
  have transfer : ∀ {index : Table NodeId (List Slot)} {endOf : Edge → NodeId},
      graph.IndexedBy index endOf → other.IndexedBy index endOf := by
    intro index endOf indexedBy
    constructor
    · intro id inside
      rw [sameSlots]
      exact indexedBy.listed id (sameNodes id ▸ inside)
    · intro id outside
      exact indexedBy.unlisted id (sameNodes id ▸ outside)
  constructor
  · rw [outgoing]
    exact transfer indexed.outgoing
  · rw [incoming]
    exact transfer indexed.incoming
  · rw [liveCount, sameSlots]
    exact indexed.counted

end Indexed

end ProgramGraph.Graph
