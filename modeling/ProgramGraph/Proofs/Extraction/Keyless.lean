import ProgramGraph.Proofs.Extraction.Acceptance
import ProgramGraph.Proofs.Graph.Renaming

/-!
# Walks without keys

As long as no two elements share a syntax key, a walk makes a new node for each of them, and
the keys decide nothing: the walk is the same as one that has no keys at all.  That walk is
given here as a function.

A walk is *free* for the sorts of the elements that it has yet to visit if their keys differ
and none of them stands for a node already.
-/

namespace ProgramGraph

open Source

/-! ## Keys of elements -/

namespace Outline

mutual

/-- The sorts of the elements of an outline, in the order of visiting. -/
def sorts : Outline → List Nat
  | element form _ attributes children =>
      SyntaxKey.sortOf form :: (sortsAll attributes ++ sortsAll children)
  | name _ => []
  | document _ _ => [SyntaxKey.documentSort]
  | ascription attributes pattern type => sortsAll attributes ++ (pattern.sorts ++ type.sorts)

/-- The sorts of the elements of outlines. -/
def sortsAll : List Outline → List Nat
  | [] => []
  | outline :: outlines => outline.sorts ++ sortsAll outlines

end

/-- The sorts of a file with these outlines and of its elements. -/
def fileSorts (outlines : List Outline) : List Nat :=
  SyntaxKey.fileSort :: sortsAll outlines

end Outline

namespace Placement

/-- The addresses and sorts of elements, the first of which is visited after `visited`
others. -/
def placesFrom (placement : Placement) (visited : Nat) (sorts : List Nat) : List (Nat × Nat) :=
  (sorts.zipIdx visited).map fun (sort, place) => (placement place, sort)

/-- The keys of elements, the first of which is visited after `visited` others. -/
def keysFrom (placement : Placement) (visited : Nat) (sorts : List Nat) : List SyntaxKey :=
  (placement.placesFrom visited sorts).map fun (address, sort) => SyntaxKey.of address sort

theorem keysFrom_cons (placement : Placement) (visited sort : Nat) (rest : List Nat) :
    placement.keysFrom visited (sort :: rest) =
      SyntaxKey.of (placement visited) sort :: placement.keysFrom (visited + 1) rest :=
  rfl

/-- The keys of a file and of its elements. -/
def keys (placement : Placement) (outlines : List Outline) : List SyntaxKey :=
  placement.keysFrom 0 (Outline.fileSorts outlines)

/-- A placement gives different keys to the elements of a source. -/
def Separates (placement : Placement) (source : String) : Prop :=
  ∀ outlines, Extraction.outlineOf (.ofString source) = .ok outlines →
    (placement.keys outlines).Nodup

/-- Whether a placement separates the elements of a source can be computed. -/
theorem separates_of_all {placement : Placement} {source : String}
    (all : (Extraction.outlineOf (.ofString source)).toOption.all
      fun outlines => decide (placement.keys outlines).Nodup) : placement.Separates source := by
  intro outlines parsed
  rw [parsed] at all
  exact of_decide_eq_true all

end Placement

/-! ## Leaving keys out -/

namespace Graph

theorem unkeyed_pushEdges (graph : Graph) (edges : List Edge) :
    (graph.pushEdges edges).unkeyed = graph.unkeyed.pushEdges edges := by
  induction edges generalizing graph with
  | nil => rfl
  | cons edge rest ih => exact ih (graph.pushEdge edge)

end Graph

namespace TokenPass

/-- The pass without the keys of its graph. -/
def unkeyed (pass : TokenPass) : TokenPass :=
  { pass with graph := pass.graph.unkeyed }

theorem unkeyed_next (pass : TokenPass) (lexeme : Lexeme) :
    (pass.next lexeme).unkeyed = pass.unkeyed.next lexeme := by
  rw [next, unkeyed, Graph.unkeyed_pushEdges]
  rfl

theorem unkeyed_after (start : Graph) (documents : List Span) (lexemes : List Lexeme) :
    (after start documents lexemes).unkeyed = after start.unkeyed documents lexemes :=
  (List.foldl_hom unkeyed fun pass lexeme => (unkeyed_next pass lexeme).symm).symm

end TokenPass

namespace Walk

/-- The walk without the keys of its graph. -/
def unkeyed (walk : Walk) : Walk :=
  { walk with graph := walk.graph.unkeyed }

end Walk

/-! ## Walks as functions -/

namespace Walk

/-- The walk after a new node for an element. -/
def addNode (kind : NodeKind) (contents : String) (span : Span) (walk : Walk) : Walk :=
  { walk with
    graph := walk.graph.pushNode (walk.graph.freshNode kind contents span.first span.last)
    visited := walk.visited + 1 }

/-- The walk after a new edge. -/
def addEdge (edge : Edge) (walk : Walk) : Walk :=
  { walk with graph := walk.graph.pushEdge edge }

/-- The node of a type and the walk after it was asked for. -/
def addTypeNode (name : String) (span : Span) (walk : Walk) : NodeId × Walk :=
  match walk.typeNodes.get? name with
  | some id => (id, walk)
  | none =>
      let id := walk.graph.nextId
      let node := walk.graph.freshNode .type name span.first span.last
      (id, { walk with
        graph := walk.graph.pushNode node
        typeNodes := walk.typeNodes.set name id })

/-- The walk after a pattern was given the type that is written in a stretch of the file. -/
def addType (source : SourceText) (pattern : NodeId) (span : Span) (walk : Walk) : Walk :=
  let name := String.ofList (Unicode.squeeze (source.slice span))
  let (id, typed) := walk.addTypeNode name span
  let linked := typed.addEdge ⟨pattern, id, .hasType⟩
  { linked with types := linked.types.insert pattern name }

mutual

/-- The walk over an outline if every element gets a new node. -/
def follow (source : SourceText) (owner : NodeId) : Outline → Walk → Option NodeId × Walk
  | .element form span attributes children, walk =>
      let id := walk.graph.nextId
      let entered := (walk.addNode .astElement form.label (source.carrySpan span)).addEdge
        ⟨owner, id, .astChild⟩
      (some id, followAll source id children (followAll source id attributes entered))
  | .name span, walk =>
      (none, { walk with names := (owner, source.carrySpan span) :: walk.names })
  | .document span text, walk =>
      let span := source.carrySpan span
      let noted := { walk with documents := span :: walk.documents }
      (none, (noted.addNode .commentJavadoc text span).addEdge
        ⟨walk.graph.nextId, owner, .comment⟩)
  | .ascription attributes pattern type, walk =>
      let (id, visited) := follow source owner pattern (followAll source owner attributes walk)
      let (_, typeVisited) := follow source owner type visited
      match id with
      | some id => (none, typeVisited.addType source id (source.carrySpan type.span))
      | none => (none, typeVisited)

/-- The walk over outlines if every element gets a new node. -/
def followAll (source : SourceText) (owner : NodeId) : List Outline → Walk → Walk
  | [], walk => walk
  | outline :: outlines, walk =>
      followAll source owner outlines (follow source owner outline walk).2

end

/-- The walk over the outline of a file if every element gets a new node. -/
def followFile (source : SourceText) (fileName : String) (outlines : List Outline) : Walk :=
  let start : Walk := { graph := .empty fileName source.lines, visited := 0 }
  let entered := start.addNode .astRoot "" ⟨0, source.chars.length⟩
  followAll source 0 outlines entered

/-! ## Free walks -/

variable {source : SourceText} {placement : Placement} {owner pattern id : NodeId}
  {walk after : Walk} {rest : List Nat}

/-- The keys of the elements that are yet to be visited differ from each other and from all
keys that stand for a node. -/
structure Free (placement : Placement) (sorts : List Nat) (walk : Walk) : Prop where
  nodup : (placement.keysFrom walk.visited sorts).Nodup
  unused : ∀ key ∈ placement.keysFrom walk.visited sorts,
    walk.graph.associations.get? key = none

theorem Free.congr (free : walk.Free placement rest) (visited : after.visited = walk.visited)
    (associations : after.graph.associations = walk.graph.associations) :
    after.Free placement rest := by
  constructor
  · exact visited ▸ free.nodup
  · rw [visited, associations]
    exact free.unused

/-- The next element gets a new node, and the walk stays free for those after it. -/
theorem Free.create {sort : Nat} {kind : NodeKind} {contents : String} {span : Span}
    (free : walk.Free placement (sort :: rest))
    (done : (create placement sort kind contents span).run walk = .ok (id, after)) :
    id = walk.graph.nextId ∧ after.unkeyed = walk.unkeyed.addNode kind contents span ∧
      after.Free placement rest := by
  obtain ⟨nodup, unused⟩ := free
  rw [Placement.keysFrom_cons] at nodup unused
  obtain ⟨fresh, restUnused⟩ := List.forall_mem_cons.mp unused
  obtain ⟨notLater, restNodup⟩ := List.nodup_cons.mp nodup
  have absent : walk.graph.nodeForKey? (SyntaxKey.of (placement walk.visited) sort) = none := by
    rw [Graph.nodeForKey?, fresh]
    rfl
  simp only [run_create, Graph.create, absent] at done
  cases done
  refine ⟨rfl, rfl, restNodup, ?_⟩
  intro key member
  have other : SyntaxKey.of (placement walk.visited) sort ≠ key := by
    rintro rfl
    exact notLater member
  exact (Table.get?_set _ _ _ _).trans ((if_neg other).trans (restUnused key member))

theorem Free.link {target : NodeId} {kind : EdgeKind} {done : Unit}
    (free : walk.Free placement rest)
    (linked : (link owner target kind).run walk = .ok (done, after)) :
    after.unkeyed = walk.unkeyed.addEdge ⟨owner, target, kind⟩ ∧ after.Free placement rest := by
  obtain ⟨_, _, got, lifts⟩ := run_bind_eq_ok_iff.mp linked
  cases got
  obtain ⟨⟨_, _⟩, _, lifted, sets⟩ := run_bind_eq_ok_iff.mp lifts
  obtain ⟨_, accepted, same⟩ := Graph.bind_eq_ok_iff.mp lifted
  cases same
  obtain ⟨_, _, _, rfl⟩ := Graph.addEdge_eq_ok_iff.mp accepted
  cases sets
  exact ⟨rfl, free.congr rfl rfl⟩

theorem Free.typeNode {name : String} {span : Span} (free : walk.Free placement rest)
    (found : (typeNode name span).run walk = .ok (id, after)) :
    walk.unkeyed.addTypeNode name span = (id, after.unkeyed) ∧ after.Free placement rest := by
  cases known : walk.typeNodes.get? name with
  | some node =>
      rw [run_typeNode_of_known span known] at found
      cases found
      refine ⟨?_, free⟩
      simp only [addTypeNode, unkeyed, known]
  | none =>
      rw [run_typeNode_of_new span known] at found
      cases found
      refine ⟨?_, free.congr rfl rfl⟩
      simp only [addTypeNode, unkeyed, known]
      rfl

theorem Free.giveType {span : Span} {done : Unit} (free : walk.Free placement rest)
    (given : (giveType source pattern span).run walk = .ok (done, after)) :
    after.unkeyed = walk.unkeyed.addType source pattern span ∧ after.Free placement rest := by
  obtain ⟨id, typed, found, links⟩ := run_bind_eq_ok_iff.mp given
  obtain ⟨_, linked, joined, modified⟩ := run_bind_eq_ok_iff.mp links
  cases modified
  obtain ⟨typedEq, free⟩ := free.typeNode found
  obtain ⟨linkedEq, free⟩ := free.link joined
  refine ⟨?_, free.congr rfl rfl⟩
  simp only [addType, typedEq, ← linkedEq]
  rfl

mutual

/-- A free walk over an outline is the walk without keys. -/
theorem follow_of_visit {source : SourceText} {placement : Placement} {owner : NodeId}
    {rest : List Nat} {walk after : Walk} {answer : Option NodeId} :
    (outline : Outline) → walk.Free placement (outline.sorts ++ rest) →
      (visit source placement owner outline).run walk = .ok (answer, after) →
      follow source owner outline walk.unkeyed = (answer, after.unkeyed) ∧
        after.Free placement rest
  | .element form span attributes children, free, done => by
      rw [visit] at done
      obtain ⟨id, created, creates, links⟩ := run_bind_eq_ok_iff.mp done
      obtain ⟨_, entered, linked, visits⟩ := run_bind_eq_ok_iff.mp links
      obtain ⟨_, described, first, visitsChildren⟩ := run_bind_eq_ok_iff.mp visits
      obtain ⟨_, filled, second, answers⟩ := run_bind_eq_ok_iff.mp visitsChildren
      cases answers
      rw [Outline.sorts, List.cons_append, List.append_assoc] at free
      obtain ⟨rfl, createdEq, free⟩ := free.create creates
      obtain ⟨enteredEq, free⟩ := free.link linked
      obtain ⟨describedEq, free⟩ := followAll_of_visitAll attributes free first
      obtain ⟨filledEq, free⟩ := followAll_of_visitAll children free second
      refine ⟨?_, free⟩
      rw [← filledEq, ← describedEq, enteredEq, createdEq]
      rfl
  | .name span, free, done => by
      rw [visit] at done
      obtain ⟨_, noted, notes, answers⟩ := run_bind_eq_ok_iff.mp done
      cases notes
      cases answers
      exact ⟨rfl, free.congr rfl rfl⟩
  | .document span text, free, done => by
      rw [visit] at done
      obtain ⟨_, noted, notes, continues⟩ := run_bind_eq_ok_iff.mp done
      obtain ⟨id, created, creates, links⟩ := run_bind_eq_ok_iff.mp continues
      obtain ⟨_, joined, linked, answers⟩ := run_bind_eq_ok_iff.mp links
      cases notes
      cases answers
      have freeNoted : Free placement (SyntaxKey.documentSort :: rest)
          { walk with documents := source.carrySpan span :: walk.documents } :=
        free.congr rfl rfl
      obtain ⟨rfl, createdEq, free⟩ := freeNoted.create creates
      obtain ⟨joinedEq, free⟩ := free.link linked
      refine ⟨?_, free⟩
      rw [joinedEq, createdEq]
      rfl
  | .ascription attributes pattern type, free, done => by
      rw [visit] at done
      obtain ⟨_, described, first, visits⟩ := run_bind_eq_ok_iff.mp done
      obtain ⟨id, patternVisited, second, visitsType⟩ := run_bind_eq_ok_iff.mp visits
      obtain ⟨_, typeVisited, third, gives⟩ := run_bind_eq_ok_iff.mp visitsType
      rw [Outline.sorts, List.append_assoc, List.append_assoc] at free
      obtain ⟨describedEq, free⟩ := followAll_of_visitAll attributes free first
      obtain ⟨patternEq, free⟩ := follow_of_visit pattern free second
      obtain ⟨typeEq, free⟩ := follow_of_visit type free third
      simp only [follow, describedEq, patternEq, typeEq]
      cases id with
      | none =>
          cases gives
          exact ⟨rfl, free⟩
      | some id =>
          obtain ⟨_, given, gives, answers⟩ := run_bind_eq_ok_iff.mp gives
          cases answers
          obtain ⟨givenEq, free⟩ := free.giveType gives
          exact ⟨congrArg (Prod.mk none) givenEq.symm, free⟩

/-- A free walk over outlines is the walk without keys. -/
theorem followAll_of_visitAll {source : SourceText} {placement : Placement} {owner : NodeId}
    {rest : List Nat} {walk after : Walk} :
    (outlines : List Outline) → walk.Free placement (Outline.sortsAll outlines ++ rest) →
      (visit.visitAll source placement owner outlines).run walk = .ok ((), after) →
      followAll source owner outlines walk.unkeyed = after.unkeyed ∧ after.Free placement rest
  | [], free, done => by
      cases done
      exact ⟨rfl, free⟩
  | outline :: outlines, free, done => by
      rw [visit.visitAll] at done
      obtain ⟨_, middle, first, second⟩ := run_bind_eq_ok_iff.mp done
      rw [Outline.sortsAll, List.append_assoc] at free
      obtain ⟨middleEq, free⟩ := follow_of_visit outline free first
      rw [followAll, middleEq]
      exact followAll_of_visitAll outlines free second

end

/-- If the keys of a file and of its elements differ, its walk is the walk without keys. -/
theorem unkeyed_of_ofFile {fileName : String} {outlines : List Outline}
    (distinct : (placement.keys outlines).Nodup)
    (walked : ofFile source placement fileName outlines = .ok walk) :
    walk.unkeyed = followFile source fileName outlines := by
  obtain ⟨⟨_, last⟩, done, same⟩ := Graph.bind_eq_ok_iff.mp walked
  cases same
  obtain ⟨id, entered, creates, visits⟩ := run_bind_eq_ok_iff.mp done
  have free : Free placement (SyntaxKey.fileSort :: (Outline.sortsAll outlines ++ []))
      { graph := .empty fileName source.lines, visited := 0 } := by
    rw [List.append_nil]
    exact ⟨distinct, fun _ _ => rfl⟩
  obtain ⟨rfl, enteredEq, free⟩ := free.create creates
  obtain ⟨walkEq, _⟩ := followAll_of_visitAll outlines free visits
  rw [followFile, ← walkEq, enteredEq]
  rfl

end Walk

/-! ## Extractions without keys -/

namespace Extraction

/-- The extraction without the keys of its graph. -/
def unkeyed (extraction : Extraction) : Extraction :=
  { extraction with graph := extraction.graph.unkeyed }

theorem unkeyed_finish (walk : Walk) (lexemes : List Lexeme) :
    (finish walk lexemes).unkeyed = finish walk.unkeyed lexemes := by
  have passes := TokenPass.unkeyed_after walk.graph walk.documents.reverse lexemes
  simp only [finish, unkeyed, Graph.unkeyed_pushEdges]
  rw [Walk.unkeyed, ← passes]
  rfl

/-- If the keys of a file and of its elements differ, its extraction is, but for the keys, the
one that the walk without keys leads to. -/
theorem unkeyed_of_assemble {text : SourceText} {placement : Placement} {fileName : String}
    {outlines : List Outline} {lexemes : List Lexeme} {extraction : Extraction}
    (distinct : (placement.keys outlines).Nodup)
    (assembled : assemble text placement fileName outlines lexemes = .ok extraction) :
    extraction.unkeyed = finish (Walk.followFile text fileName outlines) lexemes := by
  obtain ⟨walk, walked, grounded⟩ := Walk.exists_ofFile_eq_ok text placement fileName outlines
  have finished := (assemble_of_walk walked grounded lexemes).1
  rw [assembled] at finished
  cases finished
  rw [unkeyed_finish, Walk.unkeyed_of_ofFile distinct walked]

end Extraction

end ProgramGraph
