import ProgramGraph.Extraction.Basic
import ProgramGraph.Proofs.Graph.Reachable
import ProgramGraph.Proofs.Keeping

/-!
# Extracted graphs are reachable

The walk over an outline, the pass over the lexemes and the linking of names change a
graph by operations only.  So the graph of a source file is one that a history of
operations leads to, and all that is known of reachable graphs is known of it.
-/

namespace ProgramGraph

open Source

namespace Graph.Reachable

variable {graph next : Graph}

theorem create (reachable : graph.Reachable) (kind : NodeKind) (contents : String)
    (first last : Nat) (key : SyntaxKey) :
    (graph.create kind contents first last key).2.Reachable :=
  .run (.create kind contents first last key) reachable

theorem createDetached (reachable : graph.Reachable) (kind : NodeKind) (contents : String)
    (first last : Nat) : (graph.createDetached kind contents first last).2.Reachable :=
  .run (.createDetached kind contents first last) reachable

theorem addEdge {source target : NodeId} {kind : EdgeKind} {slot : Slot}
    (reachable : graph.Reachable) (added : graph.addEdge source target kind = .ok (slot, next)) :
    next.Reachable := by
  have done : (Operation.run graph (.addEdge ⟨source, target, kind⟩)).2 = next := by
    simp only [Operation.run, added]
  exact done ▸ .run _ reachable

theorem map_addEdge {source target : NodeId} {kind : EdgeKind} (reachable : graph.Reachable)
    (added : (·.2) <$> graph.addEdge source target kind = .ok next) : next.Reachable := by
  cases done : graph.addEdge source target kind with
  | error cause =>
      rw [done] at added
      cases added
  | ok result =>
      rw [done] at added
      cases added
      exact reachable.addEdge done

theorem prune (reachable : graph.Reachable) : graph.prune.2.Reachable :=
  .run .prune reachable

end Graph.Reachable

/-! ## The walk over an outline -/

namespace Walk

variable {walk : Walk}

/-- The graph of a walk is reachable. -/
def OnReachable (walk : Walk) : Prop :=
  walk.graph.Reachable

/-- A step of a walk keeps the graph reachable. -/
def KeepsReachable {α : Type} (step : Walker α) : Prop :=
  Keeps OnReachable step fun _ => True

/-- A node is answered with after the graph has grown. -/
theorem keeps_set (reachable : walk.graph.Reachable) (id : NodeId) :
    KeepsReachable (do set walk; return id) :=
  (Keeps.set (I := OnReachable) reachable).bind fun _ _ => .pure trivial

theorem keeps_create (placement : Placement) (sort : Nat) (kind : NodeKind) (contents : String)
    (span : Span) : KeepsReachable (create placement sort kind contents span) :=
  Keeps.get.bind fun _ reachable => keeps_set (Graph.Reachable.create reachable _ _ _ _ _) _

theorem keeps_link (source target : NodeId) (kind : EdgeKind) :
    KeepsReachable (link source target kind) :=
  Keeps.get.bind fun _ reachable =>
    (Keeps.lift fun _ added => Graph.Reachable.addEdge reachable added).bind fun _ linked =>
      .set linked

theorem keeps_typeNode (name : String) (span : Span) :
    KeepsReachable (typeNode name span) := by
  refine Keeps.get.bind fun walk reachable => ?_
  cases walk.typeNodes.get? name with
  | some id => exact .pure trivial
  | none => exact keeps_set (Graph.Reachable.createDetached reachable _ _ _ _) _

theorem keeps_giveType (source : SourceText) (pattern : NodeId) (span : Span) :
    KeepsReachable (giveType source pattern span) :=
  (keeps_typeNode _ span).bind fun id _ => (keeps_link pattern id .hasType).bind fun _ _ =>
    .modify fun _ reachable => reachable

mutual

/-- Whatever the outline is, visiting it keeps the graph reachable. -/
theorem keeps_visit (source : SourceText) (placement : Placement) (owner : NodeId) :
    (outline : Outline) → KeepsReachable (visit source placement owner outline)
  | .element form span attributes children => by
      rw [visit]
      exact (keeps_create _ _ _ _ _).bind fun id _ => (keeps_link _ _ _).bind fun _ _ =>
        (keeps_visitAll source placement id attributes).bind fun _ _ =>
          (keeps_visitAll source placement id children).bind fun _ _ => .pure trivial
  | .name span => by
      rw [visit]
      exact .bind (.modify fun _ reachable => reachable) fun _ _ => .pure trivial
  | .document span text => by
      rw [visit]
      exact .bind (.modify fun _ reachable => reachable) fun _ _ =>
        (keeps_create _ _ _ _ _).bind fun _ _ => (keeps_link _ _ _).bind fun _ _ => .pure trivial
  | .ascription attributes pattern type => by
      rw [visit]
      refine (keeps_visitAll source placement owner attributes).bind fun _ _ =>
        (keeps_visit source placement owner pattern).bind fun id _ =>
          (keeps_visit source placement owner type).bind fun _ _ => ?_
      cases id with
      | none => exact .pure trivial
      | some id => exact (keeps_giveType _ _ _).bind fun _ _ => .pure trivial

theorem keeps_visitAll (source : SourceText) (placement : Placement) (owner : NodeId) :
    (outlines : List Outline) → KeepsReachable (visit.visitAll source placement owner outlines)
  | [] => .pure trivial
  | outline :: outlines => by
      rw [visit.visitAll]
      exact (keeps_visit source placement owner outline).bind fun _ _ =>
        keeps_visitAll source placement owner outlines

end

theorem reachable_ofFile {source : SourceText} {placement : Placement} {fileName : String}
    {outlines : List Outline} (walked : ofFile source placement fileName outlines = .ok walk) :
    walk.graph.Reachable := by
  have start : OnReachable { graph := .empty fileName source.lines, visited := 0 } :=
    Graph.Reachable.empty _ _
  obtain ⟨⟨_, last⟩, done, same⟩ := Graph.bind_eq_ok_iff.mp walked
  cases same
  have keeps := (keeps_create placement SyntaxKey.fileSort .astRoot ""
    ⟨0, source.chars.length⟩).bind fun root _ => keeps_visitAll source placement root outlines
  exact (keeps _ _ _ start done).1

end Walk

/-! ## The pass over the lexemes -/

namespace TokenPass

theorem reachable_linkFrom {graph next : Graph} {source : Option NodeId} {target : NodeId}
    {kind : EdgeKind} (reachable : graph.Reachable)
    (linked : linkFrom graph source target kind = .ok next) : next.Reachable := by
  cases source with
  | none =>
      cases linked
      exact reachable
  | some source =>
      obtain ⟨added, done, same⟩ := Graph.bind_eq_ok_iff.mp linked
      cases same
      exact reachable.addEdge done

theorem reachable_add {pass after : TokenPass} {lexeme : Lexeme} (reachable : pass.graph.Reachable)
    (added : pass.add lexeme = .ok after) : after.graph.Reachable := by
  obtain ⟨linked, done, rest⟩ := Graph.bind_eq_ok_iff.mp added
  have grown : linked.Reachable :=
    reachable_linkFrom (reachable.createDetached _ _ _ _) done
  split at rest
  · dsimp only at rest
    split at rest
    · obtain ⟨reused, done, same⟩ := Graph.bind_eq_ok_iff.mp rest
      cases same
      exact grown.map_addEdge done
    · cases rest
      exact grown
  · cases rest
    exact grown

theorem reachable_run {graph : Graph} {documents : List Span} {lexemes : List Lexeme}
    {pass : TokenPass} (reachable : graph.Reachable)
    (done : run graph documents lexemes = .ok pass) : pass.graph.Reachable :=
  Graph.foldlM_keeps (P := (·.graph.Reachable)) (fun _ _ _ => reachable_add) reachable done

end TokenPass

/-! ## Extraction as a whole -/

namespace Extraction

theorem reachable_linkNames {pass : TokenPass} {names : List (NodeId × Span)} {graph : Graph}
    (reachable : pass.graph.Reachable) (linked : linkNames pass names = .ok graph) :
    graph.Reachable := by
  refine Graph.foldlM_keeps (P := Graph.Reachable) ?_ reachable linked
  rintro state ⟨owner, span⟩ after reachable stepped
  dsimp only at stepped
  split at stepped
  · exact reachable.map_addEdge stepped
  · cases stepped
    exact reachable

theorem reachable_assemble {source : SourceText} {placement : Placement} {fileName : String}
    {outlines : List Outline} {lexemes : List Lexeme} {extraction : Extraction}
    (assembled : assemble source placement fileName outlines lexemes = .ok extraction) :
    extraction.graph.Reachable := by
  obtain ⟨walk, walked, rest⟩ := Graph.bind_eq_ok_iff.mp assembled
  obtain ⟨pass, passed, rest⟩ := Graph.bind_eq_ok_iff.mp rest
  obtain ⟨graph, linked, same⟩ := Graph.bind_eq_ok_iff.mp rest
  cases same
  have walkReachable := Walk.reachable_ofFile walked
  have passReachable := TokenPass.reachable_run walkReachable passed
  exact reachable_linkNames passReachable linked

/-- The graph of a source file is reachable, pruned or not. -/
theorem reachable_of_run {placement : Placement} {prune : Bool} {fileName source : String}
    {extraction : Extraction} (accepted : run placement prune fileName source = .ok extraction) :
    extraction.graph.Reachable := by
  obtain ⟨outlines, _, rest⟩ := Graph.bind_eq_ok_iff.mp accepted
  obtain ⟨lexemes, _, rest⟩ := Graph.bind_eq_ok_iff.mp rest
  split at rest
  · next assembled =>
    have reachable := reachable_assemble assembled
    split at rest
    · cases rest
      exact reachable.prune
    · cases rest
      exact reachable
  · cases rest

end Extraction

end ProgramGraph
