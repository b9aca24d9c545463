import ProgramGraph.Proofs.Extraction.Acceptance
import ProgramGraph.Proofs.Files.Work

/-!
# What failures leave behind

A task puts one graph at a path: a graph that is there, the graph of a source text, or the
graph of a record in a file.  A task that has no graph to put there fails before it touches the
path.  A graph whose drawing is refused comes to light only after the file was made empty, so
such a task takes from the file at the path what it held, and it fails in no other way that
changes a file.  The graph of a source text always has a drawing.
-/

namespace ProgramGraph

open Attempt

variable {rendering : Rendering} {graph : Graph} {output : Path} {tree after : FileTree}
  {names : List String} {failure : Failure}

/-- Only drawings are refused, for the number of roots. -/
theorem Rendering.content_eq_error_iff (reachable : graph.Reachable) {cause : GraphError} :
    rendering.content graph = .error cause ↔
      rendering.format = .dot ∧ graph.nodes.countP (·.kind == .astRoot) ≠ 1 ∧
        cause = .rootCount graph.sourceFile (graph.nodes.countP (·.kind == .astRoot)) := by
  rw [content]
  cases rendering.format with
  | json => simp
  | bincode => simp
  | dot =>
      rcases graph.root_eq with ⟨root, member, only, oneRoot⟩ | ⟨refused, several⟩
      · rcases Dot.ofGraph_eq_ok reachable.invariant member only with ⟨document, drawn, -⟩
        simp [drawn, oneRoot, Except.map]
      · have undrawn : Dot.Document.ofGraph graph = .error
            (.rootCount graph.sourceFile (graph.nodes.countP (·.kind == .astRoot))) := by
          rw [Dot.Document.ofGraph, refused]
          rfl
        simp [undrawn, several, Except.map, eq_comm]

/-- A record is looked for without a trace. -/
theorem on_loadRecord_snd (path : Path) (tree : FileTree) :
    (on (loadRecord path) tree).2 = tree := by
  rw [loadRecord, on_bind, Work.on_use_read]
  cases tree.read path with
  | error fault => rfl
  | ok bytes =>
      change (on (if bytes.isEmpty then _ else _) tree).2 = tree
      split
      · rfl
      · split <;> rfl

/-! ## Tasks -/

/-- A task that puts one graph at a path. -/
inductive Export where
  /-- Put a graph there. -/
  | ofGraph (graph : Graph)
  /-- Put the graph of a source text there, pruned or not. -/
  | ofSource (prune : Bool) (name source : String)
  /-- Put the graph of the record in a file there. -/
  | ofRecord (input : Path)

namespace Export

/-- Do a task and answer with the graph. -/
def run (rendering : Rendering) (output : Path) : Export → Work (StateM FileTree) Graph
  | ofGraph graph => do
      save rendering graph output
      return graph
  | ofSource prune name source => extractText rendering prune name source output
  | ofRecord input => convertFile rendering input output

/-- The graph that a task is to put at the path, or why it has none. -/
def graphOn (tree : FileTree) : Export → Except Failure Graph
  | ofGraph graph => .ok graph
  | ofSource prune name source =>
      ((Extraction.ofSource prune name source).map (·.graph)).mapError (.notExtracted name)
  | ofRecord input => do
      let record ← (on (loadRecord input) tree).1
      (Graph.ofRecord record).mapError (.inconsistent input)

/-- The graph that a task is given is reachable. -/
def IsWellFormed : Export → Prop
  | ofGraph graph => graph.Reachable
  | _ => True

/-- The graph of a task is to be drawn, where a file can be made, and does not have exactly one
root. -/
def IsRefusedDrawing (work : Export) (rendering : Rendering) (output : Path) (tree : FileTree) :
    Prop :=
  rendering.format = .dot ∧ (∃ names, tree.IsPlace output names) ∧
    ∃ graph, work.graphOn tree = .ok graph ∧ graph.nodes.countP (·.kind == .astRoot) ≠ 1

variable {work : Export}

/-- A task without a graph leaves the tree as it is, and any other saves its graph. -/
theorem on_run (work : Export) (rendering : Rendering) (output : Path) (tree : FileTree) :
    on (work.run rendering output) tree =
      match work.graphOn tree with
      | .ok graph => on (do save rendering graph output; return graph) tree
      | .error failure => (.error failure, tree) := by
  cases work with
  | ofGraph graph => rfl
  | ofSource prune name source =>
      rw [run, graphOn, extractText, on_bind, Work.on_settle]
      cases Extraction.ofSource prune name source <;> rfl
  | ofRecord input =>
      have untouched := on_loadRecord_snd input tree
      rw [run, graphOn, convertFile, on_bind]
      rcases loaded : on (loadRecord input) tree with ⟨cause | record, left⟩
      · rw [loaded] at untouched
        exact congrArg (Prod.mk _) untouched
      · rw [loaded] at untouched
        subst untouched
        dsimp only
        rw [on_bind, Work.on_settle]
        change _ = match (Graph.ofRecord record).mapError (Failure.inconsistent input) with
          | .ok graph => _
          | .error failure => _
        cases (Graph.ofRecord record).mapError (Failure.inconsistent input) <;> rfl

/-- The graph of a source text is that of its extraction. -/
theorem exists_ofSource_of_graphOn {prune : Bool} {name source : String}
    (found : (ofSource prune name source).graphOn tree = .ok graph) :
    ∃ extraction, Extraction.ofSource prune name source = .ok extraction ∧
      graph = extraction.graph := by
  rw [graphOn, mapError_eq_ok_iff] at found
  cases accepted : Extraction.ofSource prune name source with
  | error cause =>
      rw [accepted] at found
      cases found
  | ok extraction =>
      rw [accepted] at found
      cases found
      exact ⟨extraction, rfl, rfl⟩

theorem reachable_of_graphOn (wellFormed : work.IsWellFormed)
    (found : work.graphOn tree = .ok graph) : graph.Reachable := by
  cases work with
  | ofGraph given =>
      cases found
      exact wellFormed
  | ofSource prune name source =>
      rcases exists_ofSource_of_graphOn found with ⟨extraction, accepted, rfl⟩
      exact Extraction.reachable_of_run accepted
  | ofRecord input =>
      rcases Graph.bind_eq_ok_iff.mp found with ⟨record, -, rebuilt⟩
      exact .loaded (mapError_eq_ok_iff.mp rebuilt)

/-- The graph of a source text is never refused. -/
theorem not_isRefusedDrawing_ofSource (prune : Bool) (name source : String) :
    ¬(ofSource prune name source).IsRefusedDrawing rendering output tree := by
  rintro ⟨-, -, graph, found, several⟩
  rcases exists_ofSource_of_graphOn found with ⟨extraction, accepted, rfl⟩
  exact several (Graph.countP_of_nodesOfKind (Extraction.roots_of_run accepted))

/-! ## What is left behind -/

/-- A refused drawing fails and leaves an empty file. -/
theorem on_run_of_isRefusedDrawing (wellFormed : work.IsWellFormed)
    (refused : work.IsRefusedDrawing rendering output tree) :
    ∃ graph names, work.graphOn tree = .ok graph ∧ tree.IsPlace output names ∧
      on (work.run rendering output) tree =
        (.error (.notSaved output (.graph (.rootCount graph.sourceFile
          (graph.nodes.countP (·.kind == .astRoot))))), tree.insert names (.file [])) := by
  rcases refused with ⟨drawing, ⟨names, place⟩, graph, found, several⟩
  have reachable := reachable_of_graphOn wellFormed found
  have noContent := (Rendering.content_eq_error_iff reachable).mpr ⟨drawing, several, rfl⟩
  refine ⟨graph, names, found, place, ?_⟩
  rw [on_run, found]
  dsimp only
  rw [on_bind, on_work_save, Rendering.on_save rendering graph place, noContent]
  rfl

/-- Every other task that fails leaves the tree as it was. -/
theorem eq_of_on_run_eq_error (wellFormed : work.IsWellFormed)
    (failed : on (work.run rendering output) tree = (.error failure, after))
    (notRefused : ¬work.IsRefusedDrawing rendering output tree) : after = tree := by
  rw [on_run] at failed
  split at failed
  · next graph found =>
    rw [on_bind, on_work_save] at failed
    by_cases reached : ∃ names, tree.IsPlace output names
    · rcases reached with ⟨names, place⟩
      rw [Rendering.on_save rendering graph place] at failed
      cases written : rendering.content graph with
      | ok content =>
          rw [written] at failed
          cases failed
      | error cause =>
          have reachable := reachable_of_graphOn wellFormed found
          have refused := (Rendering.content_eq_error_iff reachable).mp written
          exact absurd ⟨refused.1, ⟨names, place⟩, graph, found, refused.2.1⟩ notRefused
    · obtain ⟨fault, unsaved⟩ := Rendering.on_save_of_not_isPlace rendering graph
        (not_exists.mp reached)
      rw [unsaved] at failed
      cases failed
      rfl
  · cases failed
    rfl

/-- What a task that failed leaves behind. -/
structure LeavesBehind (work : Export) (rendering : Rendering) (output : Path)
    (tree : FileTree) (failure : Failure) (after : FileTree) : Prop where
  /-- The path leads to what it led to, unless a refused drawing emptied a file there or made
  an empty one. -/
  destination : after.find? output = tree.find? output ↔
    ¬work.IsRefusedDrawing rendering output tree ∨ tree.find? output = some (.file [])
  /-- A refused drawing leaves an empty file and is told apart by its failure. -/
  emptied : work.IsRefusedDrawing rendering output tree →
    after.find? output = some (.file []) ∧
      ∃ sourceFile count, failure = .notSaved output (.graph (.rootCount sourceFile count))
  /-- All other tasks leave the whole tree as it was. -/
  kept : ¬work.IsRefusedDrawing rendering output tree → after = tree
  /-- What is at other places stays there in any case. -/
  others : ∀ path, tree.locate path ≠ tree.locate output → after.find? path = tree.find? path
  /-- An extraction leaves the whole tree as it was. -/
  extraction : ∀ prune name source, work = .ofSource prune name source → after = tree

/-- A task that fails leaves its destination as it was, unless it was to draw a graph without
exactly one root at a place for a file that was not empty. -/
theorem leavesBehind_of_failed (wellFormed : work.IsWellFormed)
    (failed : on (work.run rendering output) tree = (.error failure, after)) :
    LeavesBehind work rendering output tree failure after := by
  have unless_refused := eq_of_on_run_eq_error wellFormed failed
  by_cases refused : work.IsRefusedDrawing rendering output tree
  · rcases on_run_of_isRefusedDrawing wellFormed refused with ⟨graph, names, found, place, done⟩
    rw [failed] at done
    cases done
    have here : (tree.insert names (.file [])).find? output = some (.file []) := by
      rw [FileTree.find?_insert place.noDirectory, if_pos place.located]
    constructor
    case destination =>
      rw [here, eq_comm]
      exact (or_iff_right (not_not_intro refused)).symm
    case emptied => exact fun _ => ⟨here, _, _, rfl⟩
    case kept => exact unless_refused
    case others =>
      intro path elsewhere
      rw [place.located] at elsewhere
      rw [FileTree.find?_insert place.noDirectory, if_neg elsewhere]
    case extraction =>
      rintro prune name source rfl
      exact absurd refused (not_isRefusedDrawing_ofSource prune name source)
  · obtain rfl := unless_refused refused
    constructor
    case destination => exact iff_of_true rfl (.inl refused)
    case emptied => exact fun same => absurd same refused
    case kept => exact fun _ => rfl
    case others => exact fun _ _ => rfl
    case extraction => exact fun _ _ _ _ => rfl

/-- The record of a graph without nodes, and a drawing. -/
def sampleTree : FileTree where
  entries := [(["in.json"],
      .file (Utf8.bytesOf "\x7b\"source_file\":\"a.rs\",\"nodes\":[],\"edges\":[]\x7d")),
    (["out.dot"], .file (Utf8.bytesOf "digraph \x7b\x7d\n"))]

/-- A record file that is not there leaves the drawing as it is, and a graph without a root
leaves an empty file where there was none. -/
theorem leavesBehind_sample :
    LeavesBehind (.ofRecord ⟨"missing.json"⟩) {} ⟨"out.dot"⟩ sampleTree
        (.unreadRecord ⟨"missing.json"⟩ .missing) sampleTree ∧
      (ofGraph (.empty "a.rs" {})).IsWellFormed ∧
      LeavesBehind (.ofGraph (.empty "a.rs" {})) {} ⟨"new.dot"⟩ sampleTree
        (.notSaved ⟨"new.dot"⟩ (.graph (.rootCount "a.rs" 0)))
        (sampleTree.insert ["new.dot"] (.file [])) := by
  have unread : on ((ofRecord ⟨"missing.json"⟩).run {} ⟨"out.dot"⟩) sampleTree =
      (.error (.unreadRecord ⟨"missing.json"⟩ .missing), sampleTree) := by
    decide +kernel
  have unsaved : on ((ofGraph (.empty "a.rs" {})).run {} ⟨"new.dot"⟩) sampleTree =
      (.error (.notSaved ⟨"new.dot"⟩ (.graph (.rootCount "a.rs" 0))),
        sampleTree.insert ["new.dot"] (.file [])) := by
    decide +kernel
  exact ⟨leavesBehind_of_failed trivial unread, .empty "a.rs" {},
    leavesBehind_of_failed (.empty "a.rs" {}) unsaved⟩

/-- A conversion that fails for the number of roots empties the file that it was to write. -/
theorem empties_destination :
    on (convertFile { format := .dot } ⟨"in.json"⟩ ⟨"out.dot"⟩) sampleTree =
        (.error (.notSaved ⟨"out.dot"⟩ (.graph (.rootCount "a.rs" 0))),
          sampleTree.insert ["out.dot"] (.file [])) ∧
      sampleTree.read ⟨"out.dot"⟩ = .ok (Utf8.bytesOf "digraph \x7b\x7d\n") ∧
      (sampleTree.insert ["out.dot"] (.file [])).read ⟨"out.dot"⟩ = .ok [] := by
  decide +kernel

end Export

end ProgramGraph
