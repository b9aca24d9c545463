import ProgramGraph.Proofs.Graph.Indexes

/-!
# Keys and their nodes

A graph keeps the relation between syntax keys and nodes twice, as a table from keys
to nodes and as a table from nodes to lists of keys.  `Keyed` says that the two are
inverse to each other and that no key stands for a node that has gone.

A key comes to a node at its creation, moves to another node, and is forgotten with
its node; the two tables stay inverse through all three.
-/

namespace ProgramGraph.Graph

variable {graph : Graph} {id : NodeId} {key : SyntaxKey}

/-- Each key is listed once at the node it stands for and at no other node, and that
node is in the graph. -/
structure Keyed (graph : Graph) : Prop where
  count_keys : ∀ id key,
    (graph.keys id).count key = if graph.associations.get? key = some id then 1 else 0
  associated_mem : ∀ key id, graph.associations.get? key = some id → graph.contains id

namespace Keyed

theorem mem_keys (keyed : graph.Keyed) :
    key ∈ graph.keys id ↔ graph.associations.get? key = some id := by
  rw [← List.count_pos_iff, keyed.count_keys]
  split <;> simp_all

theorem nodup_keys (keyed : graph.Keyed) (id : NodeId) : (graph.keys id).Nodup := by
  rw [List.nodup_iff_count]
  intro key
  rw [keyed.count_keys]
  split <;> omega

/-- A key that stands for a node gives that node. -/
theorem nodeForKey?_eq_none_iff (keyed : graph.Keyed) :
    graph.nodeForKey? key = none ↔ graph.associations.get? key = none := by
  unfold nodeForKey?
  cases stored : graph.associations.get? key with
  | none => simp
  | some id =>
      have present := keyed.associated_mem key id stored
      simpa [node?_eq_none_iff] using present

end Keyed

/-! ## What the operations do to the two tables -/

theorem keys_associate (graph : Graph) (key : SyntaxKey) (id other : NodeId) :
    (graph.associate key id).keys other =
      graph.keys other ++ if id = other then [key] else [] := by
  rw [keys, associate, Table.get?_set]
  by_cases same : id = other
  · subst same
    simp
  · simp [same, keys]

theorem get?_associations_associate (graph : Graph) (key other : SyntaxKey) (id : NodeId) :
    (graph.associate key id).associations.get? other =
      if key = other then some id else graph.associations.get? other :=
  Table.get?_set _ _ _ _

theorem keys_moveKey (graph : Graph) (key : SyntaxKey) (old new other : NodeId) :
    (graph.moveKey key old new).keys other =
      (if old = other then [] else graph.keys other) ++ if new = other then [key] else [] := by
  rw [moveKey, keys_associate]
  congr 1
  rw [keys, Table.get?_erase]
  split <;> rfl

theorem get?_associations_moveKey (graph : Graph) (key other : SyntaxKey) (old new : NodeId) :
    (graph.moveKey key old new).associations.get? other =
      if key = other then some new else graph.associations.get? other :=
  get?_associations_associate _ key other new

theorem keys_forgetKeys (graph : Graph) (id other : NodeId) :
    (graph.forgetKeys id).keys other = if id = other then [] else graph.keys other := by
  rw [keys, forgetKeys, Table.get?_erase]
  split <;> rfl

private theorem get?_foldl_erase (gone : List SyntaxKey) (table : Table SyntaxKey NodeId)
    (key : SyntaxKey) :
    (gone.foldl Table.erase table).get? key = if key ∈ gone then none else table.get? key := by
  induction gone generalizing table with
  | nil => simp
  | cons first rest ih =>
      rw [List.foldl_cons, ih, Table.get?_erase]
      by_cases later : key ∈ rest
      · simp [later]
      · by_cases here : first = key
        · simp [here]
        · simp [later, here, Ne.symm here]

theorem get?_associations_forgetKeys (graph : Graph) (id : NodeId) (key : SyntaxKey) :
    (graph.forgetKeys id).associations.get? key =
      if key ∈ graph.keys id then none else graph.associations.get? key :=
  get?_foldl_erase _ _ _

/-- Between nodes of the graph, the keys of the old node decide. -/
theorem replaceAssociation_of_contains {old new : NodeId} (oldPresent : graph.contains old)
    (newPresent : graph.contains new) :
    graph.replaceAssociation old new =
      match graph.keys old with
      | [] => .error (.nodeNotAssociated old)
      | [key] => .ok (graph.moveKey key old new)
      | keys => .error (.ambiguousAssociation old keys.length) := by
  rw [replaceAssociation, require_of_contains oldPresent, require_of_contains newPresent]
  rfl

theorem replaceAssociation_eq_ok_iff {old new : NodeId} {next : Graph} :
    graph.replaceAssociation old new = .ok next ↔
      graph.contains old ∧ graph.contains new ∧
        ∃ key, graph.keys old = [key] ∧ next = graph.moveKey key old new := by
  by_cases oldPresent : graph.contains old
  · by_cases newPresent : graph.contains new
    · rw [replaceAssociation_of_contains oldPresent newPresent]
      simp only [oldPresent, newPresent, true_and]
      match graph.keys old with
      | [] => simp
      | [key] => simp [eq_comm]
      | _ :: _ :: _ => simp
    · rw [replaceAssociation, require_of_contains oldPresent,
        require_of_not_contains newPresent]
      simp [newPresent, bind, Except.bind]
  · rw [replaceAssociation, require_of_not_contains oldPresent]
    simp [oldPresent, bind, Except.bind]

/-! ## The two tables stay inverse -/

namespace Keyed

theorem empty (sourceFile : String) (lines : LineMap) :
    (Graph.empty sourceFile lines).Keyed where
  count_keys _ _ := rfl
  associated_mem _ _ stored := by cases stored

/-- Only the tables and the presence of nodes matter. -/
theorem congr {other : Graph} (keyed : graph.Keyed)
    (associations : other.associations = graph.associations)
    (keysOf : other.keysOf = graph.keysOf)
    (nodes : ∀ id, graph.contains id → other.contains id) : other.Keyed where
  count_keys id key := by
    rw [keys, keysOf, associations]
    exact keyed.count_keys id key
  associated_mem key id stored := by
    rw [associations] at stored
    exact nodes id (keyed.associated_mem key id stored)

/-- A key that stands for no node may be given to a node of the graph. -/
theorem associate (keyed : graph.Keyed) (fresh : graph.associations.get? key = none)
    (present : graph.contains id) : (graph.associate key id).Keyed where
  count_keys other asked := by
    rw [keys_associate, get?_associations_associate, List.count_append, keyed.count_keys]
    by_cases asks : key = asked
    · subst asks
      by_cases here : id = other <;> simp [fresh, here]
    · by_cases here : id = other <;> simp [asks, here]
  associated_mem asked other stored := by
    rw [get?_associations_associate] at stored
    split at stored
    · cases stored
      exact present
    · exact keyed.associated_mem asked other stored

/-- The only key of a node may move to any node, also to the one where it is. -/
theorem moveKey {old new : NodeId} (keyed : graph.Keyed) (only : graph.keys old = [key])
    (present : graph.contains new) : (graph.moveKey key old new).Keyed where
  count_keys other asked := by
    have atOld := keyed.count_keys old asked
    have atOther := keyed.count_keys other asked
    rw [only] at atOld
    rw [keys_moveKey, get?_associations_moveKey, List.count_append]
    by_cases asks : key = asked
    · subst asks
      have stored : graph.associations.get? key = some old := by
        apply keyed.mem_keys.mp
        rw [only]
        exact List.mem_cons_self
      by_cases left : old = other
      · by_cases here : new = other <;> simp [left, here]
      · by_cases here : new = other <;> simp_all
    · by_cases left : old = other
      · subst left
        by_cases here : new = old <;> simp_all
      · by_cases here : new = other <;> simp_all
  associated_mem asked other stored := by
    rw [get?_associations_moveKey] at stored
    split at stored
    · cases stored
      exact present
    · exact keyed.associated_mem asked other stored

/-- The keys of a node may be forgotten once the node has gone. -/
theorem forgetKeys {rest : Graph} (keyed : graph.Keyed)
    (associations : rest.associations = graph.associations)
    (keysOf : rest.keysOf = graph.keysOf)
    (nodes : ∀ other, graph.contains other → other ≠ id → rest.contains other) :
    (rest.forgetKeys id).Keyed := by
  have sameKeys : ∀ other, rest.keys other = graph.keys other := by
    intro other
    rw [keys, keysOf]
    rfl
  constructor
  · intro other key
    rw [keys_forgetKeys, get?_associations_forgetKeys, sameKeys, sameKeys, associations]
    by_cases here : id = other
    · subst here
      by_cases stored : key ∈ graph.keys id
      · simp [stored]
      · have elsewhere := mt keyed.mem_keys.mpr stored
        simp [stored, elsewhere]
    · rw [if_neg here, keyed.count_keys]
      by_cases stored : key ∈ graph.keys id
      · have atId := keyed.mem_keys.mp stored
        simp [stored, atId, here]
      · simp [stored]
  · intro key other stored
    rw [get?_associations_forgetKeys, sameKeys, associations] at stored
    split at stored
    · cases stored
    · next kept =>
      apply nodes other (keyed.associated_mem key other stored)
      rintro rfl
      exact kept (keyed.mem_keys.mpr stored)

end Keyed

end ProgramGraph.Graph
