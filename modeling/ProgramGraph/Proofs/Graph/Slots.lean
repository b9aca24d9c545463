import ProgramGraph.Graph.Query
import ProgramGraph.Graph.Removal

/-!
# Edges and their slots

The slots are the primary store of the edges; the indexes and the number of edges
repeat what they hold.  This module reads a graph slot by slot: `slotsWhere` lists
the slots whose edge passes a test, and the edges found there are the edges of the
graph that pass it, in the same order.

The operations on slots are described by what they do to `edge?` and, from that, to
`slotsWhere`: adding an edge puts its slot at the end, emptying a slot strikes it.
-/

namespace ProgramGraph.Graph

/-- The slots whose edge passes a test, in ascending order. -/
def slotsWhere (graph : Graph) (keep : Edge → Bool) : List Slot :=
  (List.range graph.slots.size).filter fun slot => (graph.edge? slot).any keep

variable {graph : Graph} {keep : Edge → Bool} {edge : Edge} {slot : Slot}

/-! ## Reading the slots -/

theorem slot_lt_size (live : graph.edge? slot = some edge) : slot < graph.slots.size := by
  apply Nat.lt_of_not_le
  intro outside
  simp [edge?, Array.getElem?_eq_none outside] at live

theorem mem_slotsWhere :
    slot ∈ graph.slotsWhere keep ↔ ∃ edge, graph.edge? slot = some edge ∧ keep edge := by
  simp only [slotsWhere, List.mem_filter, List.mem_range, Option.any_eq_true]
  constructor
  · rintro ⟨_, edge, live, kept⟩
    exact ⟨edge, live, kept⟩
  · rintro ⟨edge, live, kept⟩
    exact ⟨slot_lt_size live, edge, live, kept⟩

theorem slotsWhere_ascend (graph : Graph) (keep : Edge → Bool) :
    (graph.slotsWhere keep).Pairwise (· < ·) :=
  List.pairwise_lt_range.filter _

/-- No slot passes a test that no edge of the graph passes. -/
theorem slotsWhere_eq_nil
    (none : ∀ slot edge, graph.edge? slot = some edge → ¬keep edge) :
    graph.slotsWhere keep = [] := by
  apply List.eq_nil_iff_forall_not_mem.mpr
  intro slot member
  obtain ⟨edge, live, kept⟩ := mem_slotsWhere.mp member
  exact none slot edge live kept

/-- Reading all places of a list gives the list. -/
private theorem map_range_getElem? (slots : List (Option Edge)) :
    (List.range slots.length).map (fun place => slots[place]?.join) = slots := by
  apply List.ext_getElem
  · simp
  · intro place _ inside
    simp [List.getElem?_eq_getElem inside]

/-- The edges in the slots that pass a test are the edges that pass it. -/
theorem filterMap_edge?_slotsWhere (graph : Graph) (keep : Edge → Bool) :
    (graph.slotsWhere keep).filterMap graph.edge? = graph.edges.filter keep := by
  have places : (List.range graph.slots.size).map graph.edge? = graph.slots.toList := by
    have all := map_range_getElem? graph.slots.toList
    simp only [Array.length_toList, Array.getElem?_toList] at all
    exact all
  have same : ∀ slot,
      (if (graph.edge? slot).any keep then graph.edge? slot else none) =
        (graph.edge? slot).filter keep := by
    intro slot
    cases graph.edge? slot <;> simp [Option.filter]
  calc
    (graph.slotsWhere keep).filterMap graph.edge? =
        (List.range graph.slots.size).filterMap
          (fun slot => (graph.edge? slot).filter keep) := by
      simp only [slotsWhere, List.filterMap_filter, same]
    _ = ((List.range graph.slots.size).filterMap graph.edge?).filter keep := by
      rw [List.filter_filterMap]
    _ = (((List.range graph.slots.size).map graph.edge?).filterMap id).filter keep := by
      rw [List.filterMap_map]
      rfl
    _ = graph.edges.filter keep := by
      rw [places]
      rfl

/-- The edges are those of all slots that hold one. -/
theorem filterMap_edge?_slotsWhere_true (graph : Graph) :
    (graph.slotsWhere fun _ => true).filterMap graph.edge? = graph.edges := by
  rw [filterMap_edge?_slotsWhere, List.filter_eq_self.mpr fun _ _ => rfl]

/-- There are as many slots that pass a test as edges. -/
theorem length_slotsWhere (graph : Graph) (keep : Edge → Bool) :
    (graph.slotsWhere keep).length = (graph.edges.filter keep).length := by
  rw [← filterMap_edge?_slotsWhere, List.length_filterMap_eq_countP]
  refine (List.countP_eq_length.mpr ?_).symm
  intro slot member
  obtain ⟨edge, live, _⟩ := mem_slotsWhere.mp member
  simp [live]

theorem length_slotsWhere_true (graph : Graph) :
    (graph.slotsWhere fun _ => true).length = graph.edges.length := by
  rw [length_slotsWhere, List.filter_eq_self.mpr fun _ _ => rfl]

theorem mem_edges : edge ∈ graph.edges ↔ ∃ slot, graph.edge? slot = some edge := by
  rw [← filterMap_edge?_slotsWhere_true, List.mem_filterMap]
  constructor
  · rintro ⟨slot, _, live⟩
    exact ⟨slot, live⟩
  · rintro ⟨slot, live⟩
    exact ⟨slot, mem_slotsWhere.mpr ⟨edge, live, rfl⟩, live⟩

/-! ## Adding an edge -/

theorem edge?_pushEdge (graph : Graph) (edge : Edge) (slot : Slot) :
    (graph.pushEdge edge).edge? slot =
      if slot = graph.slots.size then some edge else graph.edge? slot := by
  simp only [edge?, pushEdge, Array.getElem?_push]
  split <;> rfl

theorem slotsWhere_pushEdge (graph : Graph) (edge : Edge) (keep : Edge → Bool) :
    (graph.pushEdge edge).slotsWhere keep =
      graph.slotsWhere keep ++ if keep edge then [graph.slots.size] else [] := by
  have size : (graph.pushEdge edge).slots.size = graph.slots.size + 1 := by
    simp [pushEdge]
  simp only [slotsWhere, size, List.range_succ, List.filter_append, edge?_pushEdge]
  congr 1
  · apply List.filter_congr
    intro slot inside
    rw [if_neg (Nat.ne_of_lt (List.mem_range.mp inside))]
  · by_cases kept : keep edge <;> simp [kept]

@[simp]
theorem edges_pushEdge (graph : Graph) (edge : Edge) :
    (graph.pushEdge edge).edges = graph.edges ++ [edge] := by
  simp [edges, pushEdge]

/-! ## Emptying slots -/

/-- Emptying a slot leaves alone what does not belong to the store of edges. -/
theorem discardSlot_frame (graph : Graph) (slot : Slot) :
    ∃ slots outgoing incoming liveCount,
      graph.discardSlot slot = { graph with slots, outgoing, incoming, liveCount } := by
  unfold discardSlot removeEdgeAt
  cases graph.edge? slot with
  | none => exact ⟨graph.slots, graph.outgoing, graph.incoming, graph.liveCount, rfl⟩
  | some edge => exact ⟨_, _, _, _, rfl⟩

theorem discardSlots_frame (graph : Graph) (gone : List Slot) :
    ∃ slots outgoing incoming liveCount,
      graph.discardSlots gone = { graph with slots, outgoing, incoming, liveCount } := by
  induction gone generalizing graph with
  | nil => exact ⟨graph.slots, graph.outgoing, graph.incoming, graph.liveCount, rfl⟩
  | cons slot rest ih =>
      obtain ⟨_, _, _, _, first⟩ := graph.discardSlot_frame slot
      obtain ⟨slots, outgoing, incoming, liveCount, later⟩ := ih (graph.discardSlot slot)
      refine ⟨slots, outgoing, incoming, liveCount, ?_⟩
      rw [discardSlots_cons, later, first]

theorem slots_discardSlot (graph : Graph) (slot : Slot) :
    (graph.discardSlot slot).slots = graph.slots.setIfInBounds slot none := by
  unfold discardSlot removeEdgeAt
  cases live : graph.edge? slot with
  | some edge => rfl
  | none =>
      apply Array.ext
      · simp
      · intro place inside _
        rw [Array.getElem_setIfInBounds inside]
        split
        · next same =>
            subst same
            simpa [edge?, Array.getElem?_eq_getElem inside] using live
        · rfl

@[simp]
theorem size_slots_discardSlots (graph : Graph) (gone : List Slot) :
    (graph.discardSlots gone).slots.size = graph.slots.size := by
  induction gone generalizing graph with
  | nil => rfl
  | cons slot rest ih => rw [discardSlots_cons, ih, slots_discardSlot, Array.size_setIfInBounds]

theorem edge?_discardSlot (graph : Graph) (slot other : Slot) :
    (graph.discardSlot slot).edge? other =
      if other = slot then none else graph.edge? other := by
  simp only [edge?, slots_discardSlot, Array.getElem?_setIfInBounds]
  by_cases same : other = slot
  · subst same
    by_cases inside : other < graph.slots.size <;> simp [inside]
  · simp [same, Ne.symm same]

theorem edge?_discardSlots (graph : Graph) (gone : List Slot) (slot : Slot) :
    (graph.discardSlots gone).edge? slot =
      if slot ∈ gone then none else graph.edge? slot := by
  induction gone generalizing graph with
  | nil => simp
  | cons first rest ih =>
      rw [discardSlots_cons, ih, edge?_discardSlot]
      by_cases here : slot = first <;> by_cases later : slot ∈ rest <;> simp [here, later]

/-- Removing an edge empties a slot that holds it. -/
theorem exists_slot_of_removeEdge {next : Graph} (removed : graph.removeEdge edge = .ok next) :
    ∃ slot, graph.edge? slot = some edge ∧ next = graph.discardSlot slot := by
  unfold removeEdge at removed
  split at removed
  · cases removed
  · next slot found =>
    cases removed
    have holds := List.find?_some found
    exact ⟨slot, beq_iff_eq.mp holds, rfl⟩

theorem slotsWhere_discardSlot (graph : Graph) (slot : Slot) (keep : Edge → Bool) :
    (graph.discardSlot slot).slotsWhere keep = (graph.slotsWhere keep).filter (· ≠ slot) := by
  simp only [slotsWhere, slots_discardSlot, Array.size_setIfInBounds, List.filter_filter,
    edge?_discardSlot]
  apply List.filter_congr
  intro other _
  by_cases same : other = slot <;> simp [same]

end ProgramGraph.Graph
