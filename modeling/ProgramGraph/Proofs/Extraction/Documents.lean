import ProgramGraph.Proofs.Extraction.Walk

/-!
# Documentation in outlines

A walk notes the documentation that stands in an outline, in the order of visiting, and it
leaves lexemes and the links between them alone.  This holds wherever the elements are put.
-/

namespace ProgramGraph

open Source

namespace Outline

mutual

/-- The stretches of the documentation in an outline, in the order of visiting. -/
def documents : Outline → List Span
  | element _ _ attributes children => documentsAll attributes ++ documentsAll children
  | name _ => []
  | document span _ => [span]
  | ascription attributes pattern type =>
      documentsAll attributes ++ (pattern.documents ++ type.documents)

/-- The stretches of the documentation in outlines. -/
def documentsAll : List Outline → List Span
  | [] => []
  | outline :: outlines => outline.documents ++ documentsAll outlines

end

end Outline

namespace Graph

variable {graph : Graph}

theorem tokens_pushNode {node : Node} (other : node.kind ∉ [NodeKind.token, .identifierToken]) :
    (graph.pushNode node).tokens = graph.tokens := by
  rw [tokens, nodesOfKind_pushNode, if_neg other, List.append_nil]
  rfl

theorem edgesOfKind_pushEdge_of_ne {edge : Edge} {kind : EdgeKind} (other : edge.kind ≠ kind) :
    (graph.pushEdge edge).edgesOfKind kind = graph.edgesOfKind kind := by
  rw [edgesOfKind, edges_pushEdge, List.filter_append, List.filter_singleton,
    beq_eq_false_iff_ne.mpr other]
  exact List.append_nil _

theorem tokens_create (graph : Graph) {kind : NodeKind} (contents : String) (first last : Nat)
    (key : SyntaxKey) (other : kind ∉ [NodeKind.token, .identifierToken]) :
    (graph.create kind contents first last key).2.tokens = graph.tokens := by
  rw [create]
  split
  · rfl
  · exact tokens_pushNode other

theorem edges_create (graph : Graph) (kind : NodeKind) (contents : String) (first last : Nat)
    (key : SyntaxKey) : (graph.create kind contents first last key).2.edges = graph.edges := by
  rw [create]
  split <;> rfl

end Graph

namespace Walk

variable {walk middle after : Walk} {first second found : List Span} {source target : NodeId}
  {α β : Type}

/-- A part of a walk notes documentation and leaves the lexemes and their links alone. -/
structure Notes (found : List Span) (walk after : Walk) : Prop where
  documents : after.documents = found.reverse ++ walk.documents
  tokens : after.graph.tokens = walk.graph.tokens
  links : after.graph.edgesOfKind .nextToken = walk.graph.edgesOfKind .nextToken

namespace Notes

theorem refl (walk : Walk) : Notes [] walk walk :=
  ⟨rfl, rfl, rfl⟩

theorem trans (earlier : Notes first walk middle) (later : Notes second middle after) :
    Notes (first ++ second) walk after where
  documents := by
    rw [later.documents, earlier.documents, List.reverse_append, List.append_assoc]
  tokens := later.tokens.trans earlier.tokens
  links := later.links.trans earlier.links

end Notes

/-- A program notes documentation wherever it comes to an end. -/
def Finds (found : List Span) (program : Walker α) : Prop :=
  ∀ walk answer after, program.run walk = .ok (answer, after) → Notes found walk after

namespace Finds

theorem pure (answer : α) : Finds [] (pure answer : Walker α) := by
  intro walk _ _ done
  cases done
  exact .refl walk

theorem bind {program : Walker α} {next : α → Walker β} (earlier : Finds first program)
    (later : ∀ answer, Finds second (next answer)) :
    Finds (first ++ second) (program >>= next) := by
  intro walk answer last done
  rcases run_bind_eq_ok_iff.mp done with ⟨middle, between, stepped, rest⟩
  exact (earlier walk middle between stepped).trans (later middle between answer last rest)

/-- A part that notes nothing may come first. -/
theorem quiet_bind {program : Walker α} {next : α → Walker β} (earlier : Finds [] program)
    (later : ∀ answer, Finds found (next answer)) : Finds found (program >>= next) :=
  earlier.bind later

/-- A part that notes nothing may come last. -/
theorem bind_quiet {program : Walker α} {next : α → Walker β} (earlier : Finds found program)
    (later : ∀ answer, Finds [] (next answer)) : Finds found (program >>= next) := by
  have both := earlier.bind later
  rwa [List.append_nil] at both

theorem modify {change : Walk → Walk} (notes : ∀ walk, Notes found walk (change walk)) :
    Finds found (modify change : Walker PUnit) := by
  intro walk _ _ done
  cases done
  exact notes walk

end Finds

theorem finds_create (placement : Placement) (sort : Nat) (kind : NodeKind) (contents : String)
    (span : Span) (other : kind ∉ [NodeKind.token, .identifierToken]) :
    Finds [] (create placement sort kind contents span) := by
  intro walk answer after done
  rw [run_create] at done
  cases done
  have edges := walk.graph.edges_create kind contents span.first span.last
    (SyntaxKey.of (placement walk.visited) sort)
  exact ⟨rfl, walk.graph.tokens_create contents _ _ _ other, congrArg (List.filter _) edges⟩

theorem finds_link (source target : NodeId) (kind : EdgeKind) (other : kind ≠ .nextToken) :
    Finds [] (link source target kind) := by
  intro walk answer after done
  simp only [link, StateT.run_bind, StateT.run_get, pure_bind] at done
  rcases Graph.bind_eq_ok_iff.mp done with ⟨⟨⟨slot, graph⟩, state⟩, lifted, same⟩
  rcases Graph.bind_eq_ok_iff.mp lifted with ⟨⟨slot, graph⟩, linked, kept⟩
  cases kept
  cases same
  rcases Graph.addEdge_eq_ok_iff.mp linked with ⟨-, -, -, rfl⟩
  exact ⟨rfl, rfl, Graph.edgesOfKind_pushEdge_of_ne other⟩

theorem finds_typeNode (name : String) (span : Span) : Finds [] (typeNode name span) := by
  intro walk answer after done
  cases known : walk.typeNodes.get? name with
  | some id =>
      rw [run_typeNode_of_known span known] at done
      cases done
      exact .refl walk
  | none =>
      rw [run_typeNode_of_new span known] at done
      cases done
      exact ⟨rfl, Graph.tokens_pushNode (by simp [Graph.freshNode]), rfl⟩

theorem finds_giveType (source : SourceText) (pattern : NodeId) (span : Span) :
    Finds [] (giveType source pattern span) :=
  (finds_typeNode _ span).quiet_bind fun id =>
    (finds_link pattern id .hasType (by decide)).quiet_bind fun _ =>
      .modify fun _ => ⟨rfl, rfl, rfl⟩

mutual

/-- Whatever the outline is, visiting it notes its documentation. -/
theorem finds_visit (source : SourceText) (placement : Placement) (owner : NodeId) :
    (outline : Outline) →
      Finds (outline.documents.map source.carrySpan) (visit source placement owner outline)
  | .element form span attributes children => by
      rw [visit, Outline.documents, List.map_append]
      apply (finds_create placement _ .astElement _ _ (by decide)).quiet_bind
      intro id
      apply (finds_link owner id .astChild (by decide)).quiet_bind
      intro _
      apply (finds_visitAll source placement id attributes).bind
      intro _
      exact (finds_visitAll source placement id children).bind_quiet fun _ => .pure (some id)
  | .name span => by
      rw [visit]
      exact Finds.quiet_bind (.modify fun _ => ⟨rfl, rfl, rfl⟩) fun _ => .pure none
  | .document span text => by
      rw [visit]
      apply Finds.bind_quiet
      · exact .modify fun _ => ⟨rfl, rfl, rfl⟩
      intro _
      apply (finds_create placement _ .commentJavadoc _ _ (by decide)).quiet_bind
      intro id
      exact (finds_link id owner .comment (by decide)).quiet_bind fun _ => .pure none
  | .ascription attributes pattern type => by
      rw [visit, Outline.documents, List.map_append, List.map_append]
      apply (finds_visitAll source placement owner attributes).bind
      intro _
      apply (finds_visit source placement owner pattern).bind
      intro id
      apply (finds_visit source placement owner type).bind_quiet
      intro _
      cases id with
      | none => exact .pure none
      | some id => exact (finds_giveType source id _).quiet_bind fun _ => .pure none

theorem finds_visitAll (source : SourceText) (placement : Placement) (owner : NodeId) :
    (outlines : List Outline) →
      Finds ((Outline.documentsAll outlines).map source.carrySpan)
        (visit.visitAll source placement owner outlines)
  | [] => Finds.pure PUnit.unit
  | outline :: outlines => by
      rw [visit.visitAll, Outline.documentsAll, List.map_append]
      exact (finds_visit source placement owner outline).bind fun _ =>
        finds_visitAll source placement owner outlines

end

/-- The walk over the outline of a file notes the documentation in it, and leaves all lexemes to
the pass after it. -/
theorem notes_ofFile {source : SourceText} {placement : Placement} {fileName : String}
    {outlines : List Outline} (walked : ofFile source placement fileName outlines = .ok walk) :
    walk.documents.reverse = (Outline.documentsAll outlines).map source.carrySpan ∧
      walk.graph.tokens = [] ∧ walk.graph.edgesOfKind .nextToken = [] := by
  rcases Graph.bind_eq_ok_iff.mp walked with ⟨⟨_, last⟩, done, same⟩
  cases same
  have finds := (finds_create placement SyntaxKey.fileSort .astRoot "" ⟨0, source.chars.length⟩
    (by decide)).quiet_bind fun root => finds_visitAll source placement root outlines
  have notes := finds _ _ _ done
  refine ⟨?_, notes.tokens, notes.links⟩
  rw [notes.documents]
  simp

end Walk

end ProgramGraph
