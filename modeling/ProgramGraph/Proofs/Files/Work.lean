import ProgramGraph.Attempt
import ProgramGraph.Proofs.Files.Tree
import ProgramGraph.Work

/-!
# Work on a tree of files

What work on files answers and what it leaves behind, for files that are kept in a tree.
Reading leaves the tree as it is.  Saving a graph empties the file first and fills it
then, so a graph that cannot be shown leaves an empty file.
-/

namespace ProgramGraph

open Attempt

variable {tree : FileTree} {path : Path} {names : List String} {bytes : List UInt8}
  {ε φ α : Type}

/-! ## Steps of work -/

theorem mapError_eq_ok_iff {blame : ε → φ} {result : Except ε α} {answer : α} :
    result.mapError blame = .ok answer ↔ result = .ok answer := by
  cases result <;> simp [Except.mapError]

namespace Work

@[simp]
theorem on_settle {σ : Type} (blame : ε → φ) (result : Except ε α) (state : σ) :
    on (settle blame result) state = (result.mapError blame, state) :=
  rfl

@[simp]
theorem on_use_read (blame : FileFault → φ) (path : Path) (tree : FileTree) :
    on (use blame (FileAccess.read path)) tree = ((tree.read path).mapError blame, tree) :=
  rfl

/-- A refused write leaves the tree as it is. -/
theorem on_use_write (blame : FileFault → φ) (path : Path) (bytes : List UInt8)
    (tree : FileTree) :
    on (use blame (FileAccess.write path bytes)) tree =
      match tree.write path bytes with
      | .ok after => (.ok (), after)
      | .error fault => (.error (blame fault), tree) := by
  change (((FileTree.commit (tree.write path bytes)).run tree).1.mapError blame,
    ((FileTree.commit (tree.write path bytes)).run tree).2) = _
  cases tree.write path bytes <;> rfl

end Work

/-! ## Saving a graph -/

namespace Rendering

variable {rendering : Rendering} {graph : Graph}

/-- A graph is put into a file, or the file is left empty. -/
theorem on_save (rendering : Rendering) (graph : Graph) (place : tree.IsPlace path names) :
    on (rendering.save graph path) tree =
      match rendering.content graph with
      | .ok content => (.ok (), tree.insert names (.file content.bytes))
      | .error cause => (.error (.graph cause), tree.insert names (.file [])) := by
  rw [save, on_bind, Work.on_use_write, place.write]
  dsimp only
  rw [on_bind, Work.on_settle]
  cases rendering.content graph with
  | error cause => rfl
  | ok content =>
      have again : (tree.insert names (.file [])).IsPlace path names :=
        (FileTree.isPlace_insert place.noDirectory).mpr place
      change on (Work.use SaveFault.file (FileAccess.write path content.bytes)) _ = _
      rw [Work.on_use_write, again.write, FileTree.insert_insert]

/-- Where a file cannot be made, nothing is. -/
theorem on_save_of_not_isPlace (rendering : Rendering) (graph : Graph)
    (noPlace : ∀ names, ¬tree.IsPlace path names) :
    ∃ fault, on (rendering.save graph path) tree = (.error (.file fault), tree) := by
  rw [save, on_bind, Work.on_use_write]
  cases written : tree.write path [] with
  | error fault => exact ⟨fault, rfl⟩
  | ok after =>
      obtain ⟨names, place, _⟩ := FileTree.write_eq_ok_iff.mp written
      exact absurd place (noPlace names)

end Rendering

/-! ## Pieces of work -/

section Work

variable {rendering : Rendering} {graph : Graph} {record : Record}

theorem on_work_save (rendering : Rendering) (graph : Graph) (path : Path) (tree : FileTree) :
    on (save rendering graph path) tree =
      ((on (rendering.save graph path) tree).1.mapError (.notSaved path),
        (on (rendering.save graph path) tree).2) :=
  rfl

/-- Saving looks at a graph only through what is written for it. -/
theorem save_congr {copy : Graph} (same : rendering.content copy = rendering.content graph)
    (path : Path) :
    (save rendering copy path : Work (StateM FileTree) Unit) = save rendering graph path := by
  rw [save, save, Rendering.save, Rendering.save, same]

/-- A graph that can be shown is put into the file. -/
theorem on_save_of_content {content : Content} (place : tree.IsPlace path names)
    (written : rendering.content graph = .ok content) :
    on (save rendering graph path) tree = (.ok (), tree.insert names (.file content.bytes)) := by
  rw [on_work_save, Rendering.on_save rendering graph place, written]
  rfl

/-- What bytes hold that are read as a record from a file with this path. -/
def recordOf (path : Path) (bytes : List UInt8) : Except Failure Record :=
  if path.extension? = some "json" then (Record.ofJson bytes).mapError .notJson
  else (Record.ofBytes bytes).mapError .notBinary

theorem on_loadRecord (read : tree.read path = .ok bytes) (filled : bytes ≠ []) :
    on (loadRecord path) tree = (recordOf path bytes, tree) := by
  rw [loadRecord, on_bind, Work.on_use_read, read, recordOf]
  change on (if bytes.isEmpty then _ else _) tree = _
  rw [if_neg (by simpa using filled)]
  split <;> rfl

/-- Nothing is no record. -/
theorem recordOf_nil (path : Path) (record : Record) : recordOf path [] ≠ .ok record := by
  rw [recordOf]
  split
  · exact fun same => by cases same
  · exact fun same => by cases same

theorem on_loadRecord_eq_ok_iff :
    on (loadRecord path) tree = (.ok record, tree) ↔
      ∃ bytes, tree.read path = .ok bytes ∧ recordOf path bytes = .ok record := by
  constructor
  · intro loads
    cases read : tree.read path with
    | error fault =>
        rw [loadRecord, on_bind, Work.on_use_read, read] at loads
        cases loads
    | ok bytes =>
        by_cases filled : bytes = []
        · rw [loadRecord, on_bind, Work.on_use_read, read, filled] at loads
          cases loads
        · rw [on_loadRecord read filled] at loads
          exact ⟨bytes, rfl, congrArg Prod.fst loads⟩
  · rintro ⟨bytes, read, decoded⟩
    have filled : bytes ≠ [] := fun empty => recordOf_nil path record (empty ▸ decoded)
    rw [on_loadRecord read filled, decoded]

theorem on_readText {text : String} (blame : FileFault → Failure)
    (read : tree.read path = .ok bytes) (decoded : Utf8.textOf bytes = .ok text) :
    on (readText blame path) tree = (.ok text, tree) := by
  rw [readText, on_bind, Work.on_use_read, read]
  simp only [Except.mapError, Work.on_settle, decoded]

/-- A conversion saves the graph of the record that it loads. -/
theorem on_convertFile (rendering : Rendering) (target : Path)
    (loads : on (loadRecord path) tree = (.ok record, tree))
    (accepted : Graph.ofRecord record = .ok graph) :
    on (convertFile rendering path target) tree =
      on (do save rendering graph target; return graph) tree := by
  rw [convertFile, on_bind, loads]
  dsimp only
  rw [on_bind, Work.on_settle, accepted]
  rfl

/-- An extraction saves the graph of the source text that it reads. -/
theorem on_extractFile {source : String} {extraction : Extraction} (rendering : Rendering)
    (prune : Bool) (input directory : Path) (read : tree.read input = .ok bytes)
    (decoded : Utf8.textOf bytes = .ok source)
    (accepted : Extraction.ofSource prune input.text source = .ok extraction) :
    on (extractFile rendering prune input directory) tree =
      on (do
        save rendering extraction.graph (rendering.outputOf directory input)
        return rendering.outputOf directory input) tree := by
  rw [Rendering.outputOf, extractFile, on_bind, on_readText _ read decoded]
  dsimp only
  rw [on_bind, extractText, on_bind, Work.on_settle, accepted]
  dsimp only [Except.mapError]
  rw [on_bind, on_bind]
  rcases on (save rendering extraction.graph _) tree with ⟨_ | _, _⟩ <;> rfl

end Work

end ProgramGraph
