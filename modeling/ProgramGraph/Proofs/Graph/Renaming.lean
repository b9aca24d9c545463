import Mathlib.Logic.Function.Basic
import ProgramGraph.Graph.Operation
import ProgramGraph.Rendering

/-!
# Renaming syntax keys

Syntax keys are handles: a graph stores them and compares them, and does nothing else with
them.  So if all keys are renamed, in a graph and in the operations that come to it, such that
different keys stay different, everything goes on as before.  The answers are the same, and
the graph afterwards is the old one with its keys renamed.

This holds of every graph, whether its parts agree with each other or not.
-/

namespace ProgramGraph

open Function

/-! ## Tables -/

namespace Table

variable {κ α β : Type} {rename : κ → κ} {change : α → β}

/-- The table with other names for its keys. -/
def renameKeys (rename : κ → κ) (table : Table κ α) : Table κ α where
  entries := table.entries.map fun (key, value) => (rename key, value)

/-- The table with changed values. -/
def mapValues (change : α → β) (table : Table κ α) : Table κ β where
  entries := table.entries.map fun (key, value) => (key, change value)

variable [DecidableEq κ]

theorem get?_renameKeys (injective : Injective rename) (table : Table κ α) (key : κ) :
    (table.renameKeys rename).get? (rename key) = table.get? key := by
  obtain ⟨entries⟩ := table
  simp only [renameKeys, get?]
  induction entries with
  | nil => rfl
  | cons entry rest ih =>
      obtain ⟨other, value⟩ := entry
      simp only [List.map_cons, lookup, injective.eq_iff, ih]

theorem set_renameKeys (injective : Injective rename) (table : Table κ α) (key : κ) (value : α) :
    (table.renameKeys rename).set (rename key) value =
      (table.set key value).renameKeys rename := by
  obtain ⟨entries⟩ := table
  simp only [renameKeys, set, mk.injEq]
  induction entries with
  | nil => rfl
  | cons entry rest ih =>
      obtain ⟨other, old⟩ := entry
      simp only [List.map_cons, write, injective.eq_iff, ih]
      split <;> rfl

theorem erase_renameKeys (injective : Injective rename) (table : Table κ α) (key : κ) :
    (table.renameKeys rename).erase (rename key) = (table.erase key).renameKeys rename := by
  simp only [renameKeys, erase, List.filter_map, mk.injEq]
  congr 1
  apply List.filter_congr
  simp [injective.eq_iff]

theorem get?_mapValues (change : α → β) (table : Table κ α) (key : κ) :
    (table.mapValues change).get? key = (table.get? key).map change := by
  obtain ⟨entries⟩ := table
  simp only [mapValues, get?]
  induction entries with
  | nil => rfl
  | cons entry rest ih =>
      obtain ⟨other, value⟩ := entry
      simp only [List.map_cons, lookup, ih]
      split <;> rfl

theorem set_mapValues (change : α → β) (table : Table κ α) (key : κ) (value : α) :
    (table.mapValues change).set key (change value) = (table.set key value).mapValues change := by
  obtain ⟨entries⟩ := table
  simp only [mapValues, set, mk.injEq]
  induction entries with
  | nil => rfl
  | cons entry rest ih =>
      obtain ⟨other, old⟩ := entry
      simp only [List.map_cons, write, ih]
      split <;> rfl

theorem erase_mapValues (change : α → β) (table : Table κ α) (key : κ) :
    (table.mapValues change).erase key = (table.erase key).mapValues change := by
  simp only [mapValues, erase, List.filter_map, mk.injEq]
  congr 1

end Table

/-! ## Graphs -/

namespace Graph

variable {rename : SyntaxKey → SyntaxKey}

/-- The graph with other names for its syntax keys. -/
def renameKeys (rename : SyntaxKey → SyntaxKey) (graph : Graph) : Graph :=
  { graph with
    associations := graph.associations.renameKeys rename
    keysOf := graph.keysOf.mapValues (List.map rename) }

theorem keys_renameKeys (rename : SyntaxKey → SyntaxKey) (graph : Graph) (id : NodeId) :
    (graph.renameKeys rename).keys id = (graph.keys id).map rename := by
  rw [keys, keys, renameKeys, Table.get?_mapValues]
  cases graph.keysOf.get? id <;> rfl

theorem nodeForKey?_renameKeys (injective : Injective rename) (graph : Graph) (key : SyntaxKey) :
    (graph.renameKeys rename).nodeForKey? (rename key) = graph.nodeForKey? key := by
  rw [nodeForKey?, renameKeys, Table.get?_renameKeys injective]
  rfl

theorem associate_renameKeys (injective : Injective rename) (graph : Graph) (key : SyntaxKey)
    (id : NodeId) :
    (graph.renameKeys rename).associate (rename key) id =
      (graph.associate key id).renameKeys rename := by
  have keys : (graph.renameKeys rename).keys id ++ [rename key] =
      (graph.keys id ++ [key]).map rename := by
    rw [keys_renameKeys, List.map_append, List.map_singleton]
  rw [associate, keys]
  simp only [renameKeys, Table.set_renameKeys injective, Table.set_mapValues]
  rfl

theorem create_renameKeys (injective : Injective rename) (graph : Graph) (kind : NodeKind)
    (contents : String) (first last : Nat) (key : SyntaxKey) :
    (graph.renameKeys rename).create kind contents first last (rename key) =
      (graph.create kind contents first last key).map id (renameKeys rename) := by
  rw [create, create, nodeForKey?_renameKeys injective]
  cases graph.nodeForKey? key with
  | some node => rfl
  | none =>
      exact congrArg (Prod.mk _) (associate_renameKeys injective
        (graph.createDetached kind contents first last).2 key graph.nextId)

theorem addEdge_renameKeys (rename : SyntaxKey → SyntaxKey) (graph : Graph)
    (source target : NodeId) (kind : EdgeKind) :
    (graph.renameKeys rename).addEdge source target kind =
      (graph.addEdge source target kind).map (Prod.map id (renameKeys rename)) := by
  have required : (graph.renameKeys rename).require = graph.require := rfl
  rw [addEdge, addEdge, required]
  cases graph.require source with
  | error cause => rfl
  | ok _ => cases graph.require target <;> rfl

theorem moveKey_renameKeys (injective : Injective rename) (graph : Graph) (key : SyntaxKey)
    (old new : NodeId) :
    (graph.renameKeys rename).moveKey (rename key) old new =
      (graph.moveKey key old new).renameKeys rename := by
  rw [moveKey, moveKey, ← associate_renameKeys injective, renameKeys, renameKeys]
  simp only [Table.erase_mapValues]

/-- The number of keys of a node decides, and it stays. -/
theorem replaceAssociation_renameKeys (injective : Injective rename) (graph : Graph)
    (old new : NodeId) :
    (graph.renameKeys rename).replaceAssociation old new =
      (graph.replaceAssociation old new).map (renameKeys rename) := by
  have required : (graph.renameKeys rename).require = graph.require := rfl
  rw [replaceAssociation, replaceAssociation, required, keys_renameKeys]
  cases graph.require old with
  | error cause => rfl
  | ok _ =>
      cases graph.require new with
      | error cause => rfl
      | ok _ =>
          match graph.keys old with
          | [] => rfl
          | [key] => exact congrArg Except.ok (moveKey_renameKeys injective graph key old new)
          | first :: second :: rest =>
              simp only [bind, Except.bind, List.map_cons, List.length_cons, List.length_map]
              rfl

theorem discardSlot_renameKeys (rename : SyntaxKey → SyntaxKey) (graph : Graph) (slot : Slot) :
    (graph.renameKeys rename).discardSlot slot = (graph.discardSlot slot).renameKeys rename := by
  have edges : (graph.renameKeys rename).edge? slot = graph.edge? slot := rfl
  rw [discardSlot, discardSlot, removeEdgeAt, removeEdgeAt, edges]
  cases graph.edge? slot <;> rfl

theorem discardSlots_renameKeys (rename : SyntaxKey → SyntaxKey) (graph : Graph)
    (slots : List Slot) :
    (graph.renameKeys rename).discardSlots slots =
      (graph.discardSlots slots).renameKeys rename := by
  induction slots generalizing graph with
  | nil => rfl
  | cons slot rest ih =>
      rw [discardSlots_cons, discardSlots_cons, discardSlot_renameKeys, ih]

theorem removeEdgeAt_renameKeys (rename : SyntaxKey → SyntaxKey) (graph : Graph) (slot : Slot) :
    (graph.renameKeys rename).removeEdgeAt slot =
      (graph.removeEdgeAt slot).map (Prod.map id (renameKeys rename)) := by
  have edges : (graph.renameKeys rename).edge? slot = graph.edge? slot := rfl
  rw [removeEdgeAt_eq, removeEdgeAt_eq, edges, discardSlot_renameKeys]
  cases graph.edge? slot <;> rfl

theorem removeEdge_renameKeys (rename : SyntaxKey → SyntaxKey) (graph : Graph) (edge : Edge) :
    (graph.renameKeys rename).removeEdge edge =
      (graph.removeEdge edge).map (renameKeys rename) := by
  have slots : ((graph.renameKeys rename).slotsFrom edge.source).find?
      ((graph.renameKeys rename).edge? · == some edge) =
        (graph.slotsFrom edge.source).find? (graph.edge? · == some edge) := rfl
  rw [removeEdge, removeEdge, slots]
  cases (graph.slotsFrom edge.source).find? (graph.edge? · == some edge) with
  | none => rfl
  | some slot => exact congrArg Except.ok (discardSlot_renameKeys rename graph slot)

theorem forgetKeys_renameKeys (injective : Injective rename) (graph : Graph) (id : NodeId) :
    (graph.renameKeys rename).forgetKeys id = (graph.forgetKeys id).renameKeys rename := by
  have erased : ((graph.keys id).map rename).foldl Table.erase
      (graph.associations.renameKeys rename) =
      ((graph.keys id).foldl Table.erase graph.associations).renameKeys rename := by
    rw [List.foldl_map]
    exact List.foldl_hom _ fun table key => Table.erase_renameKeys injective table key
  rw [forgetKeys, forgetKeys, keys_renameKeys]
  simp only [renameKeys, erased, Table.erase_mapValues]

theorem withoutNode_renameKeys (injective : Injective rename) (graph : Graph) (id : NodeId) :
    (graph.renameKeys rename).withoutNode id = (graph.withoutNode id).renameKeys rename := by
  rw [withoutNode, withoutNode, ← forgetKeys_renameKeys injective, ← discardSlots_renameKeys]
  rfl

theorem removeNode_renameKeys (injective : Injective rename) (graph : Graph) (gone : NodeId) :
    (graph.renameKeys rename).removeNode gone =
      (graph.removeNode gone).map (Prod.map id (renameKeys rename)) := by
  have found : (graph.renameKeys rename).node? gone = graph.node? gone := rfl
  rw [removeNode, removeNode, found, withoutNode_renameKeys injective]
  cases graph.node? gone <;> rfl

theorem pruneNode_renameKeys (injective : Injective rename) (state : Nat × Graph)
    (gone : NodeId) :
    pruneNode (state.map id (renameKeys rename)) gone =
      (pruneNode state gone).map id (renameKeys rename) := by
  obtain ⟨count, graph⟩ := state
  simp only [pruneNode, Prod.map, removeNode_renameKeys injective]
  cases graph.removeNode gone <;> rfl

theorem pruneRounds_renameKeys (injective : Injective rename) (rounds : Nat)
    (state : Nat × Graph) :
    pruneRounds rounds (state.map id (renameKeys rename)) =
      (pruneRounds rounds state).map id (renameKeys rename) := by
  induction rounds generalizing state with
  | zero => rfl
  | succ rounds ih =>
      have leaves : (state.map id (renameKeys rename)).2.prunableLeaves =
          state.2.prunableLeaves := rfl
      rw [pruneRounds_succ, pruneRounds_succ, leaves]
      cases state.2.prunableLeaves with
      | nil => rfl
      | cons first rest =>
          have pruned : (first :: rest).foldl pruneNode (state.map id (renameKeys rename)) =
              ((first :: rest).foldl pruneNode state).map id (renameKeys rename) :=
            List.foldl_hom _ fun state gone => pruneNode_renameKeys injective state gone
          exact (congrArg (pruneRounds rounds) pruned).trans (ih _)

theorem prune_renameKeys (injective : Injective rename) (graph : Graph) :
    (graph.renameKeys rename).prune = graph.prune.map id (renameKeys rename) :=
  pruneRounds_renameKeys injective graph.nodes.length (0, graph)

end Graph

/-! ## Histories -/

namespace Operation

variable {rename : SyntaxKey → SyntaxKey}

/-- The operation with another name for its syntax key. -/
def renameKeys (rename : SyntaxKey → SyntaxKey) : Operation → Operation
  | create kind contents first last key => create kind contents first last (rename key)
  | operation => operation

/-- One step of a history on a graph with renamed keys is the step on the graph itself. -/
theorem run_renameKeys (injective : Injective rename) (graph : Graph) (operation : Operation) :
    (operation.renameKeys rename).run (graph.renameKeys rename) =
      ((operation.run graph).1, (operation.run graph).2.renameKeys rename) := by
  cases operation with
  | create kind contents first last key =>
      simp only [renameKeys, run, Graph.create_renameKeys injective]
      rfl
  | createDetached => rfl
  | addEdge edge =>
      simp only [renameKeys, run, Graph.addEdge_renameKeys]
      cases graph.addEdge edge.source edge.target edge.kind <;> rfl
  | replaceAssociation old new =>
      simp only [renameKeys, run, Graph.replaceAssociation_renameKeys injective]
      cases graph.replaceAssociation old new <;> rfl
  | removeNode gone =>
      simp only [renameKeys, run, Graph.removeNode_renameKeys injective]
      cases graph.removeNode gone <;> rfl
  | removeEdge edge =>
      simp only [renameKeys, run, Graph.removeEdge_renameKeys]
      cases graph.removeEdge edge <;> rfl
  | removeEdgeAt slot =>
      simp only [renameKeys, run, Graph.removeEdgeAt_renameKeys]
      cases graph.removeEdgeAt slot <;> rfl
  | prune =>
      simp only [renameKeys, run, Graph.prune_renameKeys injective]
      rfl

/-- What the operations of a history answer, one after the other. -/
def answers (graph : Graph) : List Operation → List (Except GraphError Outcome)
  | [] => []
  | operation :: rest => (operation.run graph).1 :: answers (operation.run graph).2 rest

/-- A whole history on a graph with renamed keys gets the same answers and leads to the same
graph but for the keys. -/
theorem runAll_renameKeys (injective : Injective rename) (graph : Graph)
    (history : List Operation) :
    answers (graph.renameKeys rename) (history.map (renameKeys rename)) =
        answers graph history ∧
      runAll (graph.renameKeys rename) (history.map (renameKeys rename)) =
        (runAll graph history).renameKeys rename := by
  induction history generalizing graph with
  | nil => exact ⟨rfl, rfl⟩
  | cons operation rest ih =>
      obtain ⟨sameAnswers, sameGraph⟩ := ih (operation.run graph).2
      simp only [List.map_cons, answers, runAll_cons, run_renameKeys injective]
      exact ⟨congrArg _ sameAnswers, sameGraph⟩

end Operation

/-! ## What is seen of a graph -/

section Views

variable {rename : SyntaxKey → SyntaxKey}

theorem Dot.layersFrom_renameKeys (rename : SyntaxKey → SyntaxKey) (graph : Graph) (bound : Nat)
    (shown layer : List Node) :
    layersFrom (graph.renameKeys rename) bound shown layer =
      layersFrom graph bound shown layer := by
  have children : childrenOf (graph.renameKeys rename) = childrenOf graph := rfl
  induction bound generalizing shown layer with
  | zero => rfl
  | succ bound ih => simp only [layersFrom, children, ih]

/-- Keys are not exported. -/
theorem Rendering.content_renameKeys (rename : SyntaxKey → SyntaxKey) (graph : Graph)
    (rendering : Rendering) :
    rendering.content (graph.renameKeys rename) = rendering.content graph := by
  have drawing : Dot.Document.ofGraph (graph.renameKeys rename) = Dot.Document.ofGraph graph := by
    simp only [Dot.Document.ofGraph, Dot.layers, Dot.layersFrom_renameKeys]
    rfl
  rw [content, content, drawing]
  rfl

/-- The question with another name for the syntax key that it is about. -/
def Query.renameKeys (rename : SyntaxKey → SyntaxKey) : Query → Query
  | nodeForKey key => nodeForKey (rename key)
  | query => query

theorem Query.answer_renameKeys (injective : Injective rename) (graph : Graph) (query : Query) :
    (query.renameKeys rename).answer (graph.renameKeys rename) = query.answer graph := by
  cases query with
  | nodeForKey key =>
      simp only [renameKeys, answer, Graph.nodeForKey?_renameKeys injective]
  | _ => rfl

end Views

/-! ## Results -/

/-- The graph without its syntax keys. -/
def Graph.unkeyed (graph : Graph) : Graph :=
  { graph with associations := {}, keysOf := {} }

/-- A graph without keys has none to rename. -/
theorem Graph.renameKeys_of_unkeyed {graph : Graph} (keyless : graph.unkeyed = graph)
    (rename : SyntaxKey → SyntaxKey) : graph.renameKeys rename = graph := by
  rw [← keyless]
  rfl

/-- Two histories, each with the graph that it begins with, get the same answers and lead to
graphs that answer all questions alike, with the same record and the same exports.  A question
about a syntax key is asked about the renamed one. -/
structure SameResults (rename : SyntaxKey → SyntaxKey) (graph other : Graph)
    (history changed : List Operation) : Prop where
  answers : Operation.answers other changed = Operation.answers graph history
  answer : ∀ query : Query, (query.renameKeys rename).answer (Operation.runAll other changed) =
    query.answer (Operation.runAll graph history)
  toRecord : (Operation.runAll other changed).toRecord =
    (Operation.runAll graph history).toRecord
  content : ∀ rendering : Rendering, rendering.content (Operation.runAll other changed) =
    rendering.content (Operation.runAll graph history)

/-- The keys may be renamed in a graph and in all that follows. -/
theorem sameResults_renameKeys {rename : SyntaxKey → SyntaxKey} (injective : Injective rename)
    (graph : Graph) (history : List Operation) :
    SameResults rename graph (graph.renameKeys rename) history
      (history.map (Operation.renameKeys rename)) := by
  obtain ⟨answers, graphs⟩ := Operation.runAll_renameKeys injective graph history
  constructor
  · exact answers
  · intro query
    rw [graphs]
    exact query.answer_renameKeys injective _
  · rw [graphs]
    rfl
  · intro rendering
    rw [graphs]
    exact rendering.content_renameKeys rename _

end ProgramGraph
