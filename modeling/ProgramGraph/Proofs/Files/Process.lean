import Mathlib.Data.List.Basic
import ProgramGraph.CommandLine.Run
import ProgramGraph.Proofs.Files.Work

/-!
# Work as processes

The work on a source file is the same whether it is done at once or taken apart into
requests that are done one after the other, so processes that never take turns do just what
work on one file after the other does.  As a process the work keeps to two files: it reads
one and writes the other, and the first refusal ends it.
-/

namespace ProgramGraph

open Attempt

variable {ε φ α β : Type}

/-! ## From requests to effects -/

namespace Process

theorem perform_bind (process : Process α) (rest : α → Process β) :
    (process >>= rest).perform = process.perform >>= fun answer => (rest answer).perform := by
  change (process.bind rest).perform = _
  induction process with
  | done answer => rfl
  | read path next ih => simp only [bind, perform, bind_assoc, ih]
  | write path bytes next ih => simp only [bind, perform, bind_assoc, ih]
  | makeDirectories path next ih => simp only [bind, perform, bind_assoc, ih]

theorem perform_map (change : α → β) (process : Process α) :
    (change <$> process).perform = change <$> process.perform := by
  rw [map_eq_pure_bind change process.perform]
  exact perform_bind process fun answer => done (change answer)

/-- A process is performed by its next request and by what remains then. -/
theorem run_perform (process : Process α) (tree : FileTree) :
    process.perform.run tree =
      (process.step.run tree).1.perform.run (process.step.run tree).2 := by
  cases process <;> rfl

/-- The effects of work that is given by its requests. -/
def effects (work : ExceptT ε Process α) : ExceptT ε (StateM FileTree) α :=
  ExceptT.mk work.run.perform

theorem effects_pure (answer : α) :
    effects (pure answer : ExceptT ε Process α) = pure answer :=
  rfl

theorem effects_bind (work : ExceptT ε Process α) (rest : α → ExceptT ε Process β) :
    effects (work >>= rest) = effects work >>= fun answer => effects (rest answer) := by
  change (work.run >>= ExceptT.bindCont rest).perform =
    work.run.perform >>= ExceptT.bindCont fun answer => effects (rest answer)
  rw [perform_bind]
  congr 1
  funext result
  cases result <;> rfl

theorem effects_settle (blame : ε → φ) (result : Except ε α) :
    effects (Work.settle blame result) = Work.settle blame result :=
  rfl

theorem effects_use (blame : ε → φ) (process : Process (Except ε α)) :
    effects (Work.use blame process) = Work.use blame process.perform :=
  perform_map (Except.mapError blame) process

theorem effects_read (blame : FileFault → φ) (path : Path) :
    effects (Work.use blame (FileAccess.read path)) = Work.use blame (FileAccess.read path) :=
  effects_use blame (FileAccess.read path)

theorem effects_write (blame : FileFault → φ) (path : Path) (bytes : List UInt8) :
    effects (Work.use blame (FileAccess.write path bytes)) =
      Work.use blame (FileAccess.write path bytes) :=
  effects_use blame (FileAccess.write path bytes)

/-! ## Work on source files -/

section Work

variable (rendering : Rendering) (prune : Bool)

theorem effects_readText (blame : FileFault → Failure) (path : Path) :
    effects (readText blame path) = readText blame path := by
  rw [readText, readText, effects_bind, effects_read]
  rfl

theorem effects_rendering_save (graph : Graph) (path : Path) :
    effects (rendering.save graph path) = rendering.save graph path := by
  simp only [Rendering.save, effects_bind, effects_write, effects_settle]

theorem effects_save (graph : Graph) (path : Path) :
    effects (save rendering graph path) = save rendering graph path := by
  rw [save, effects_use]
  exact congrArg (Work.use _) (effects_rendering_save rendering graph path)

theorem effects_extractText (name source : String) (output : Path) :
    effects (extractText rendering prune name source output) =
      extractText rendering prune name source output := by
  simp only [extractText, effects_bind, effects_settle, effects_save, effects_pure]

theorem effects_extractFile (input directory : Path) :
    effects (extractFile rendering prune input directory) =
      extractFile rendering prune input directory := by
  simp only [extractFile, effects_bind, effects_readText, effects_extractText, effects_pure]

/-- Without turns source files are worked on one after the other. -/
theorem extractInTurns_nil :
    extractInTurns [] rendering prune = extractFiles rendering prune := by
  funext inputs directory
  rw [extractInTurns, atOnce, List.mapM_map, extractFiles]
  congr 1
  funext input
  exact effects_extractFile rendering prune input directory

end Work

/-! ## Confined processes -/

/-- A process that reads no file but one and writes no file but one.  It does not go on after
a refusal. -/
inductive Confined (source target : Path) : Process (Except ε α) → Prop where
  | done (result : Except ε α) : Confined source target (.done result)
  | read {next : Except FileFault (List UInt8) → Process (Except ε α)}
      (goesOn : ∀ reply, Confined source target (next reply))
      (stops : ∀ fault, ∃ cause, next (.error fault) = .done (.error cause)) :
      Confined source target (.read source next)
  | write {bytes : List UInt8} {next : Except FileFault Unit → Process (Except ε α)}
      (goesOn : ∀ reply, Confined source target (next reply))
      (stops : ∀ fault, ∃ cause, next (.error fault) = .done (.error cause)) :
      Confined source target (.write target bytes next)

namespace Confined

variable {source target : Path}

/-- What goes on after a confined process and keeps its failures is confined. -/
theorem goOn {process : Process (Except ε α)} {rest : Except ε α → Process (Except φ β)}
    (confined : Confined source target process)
    (later : ∀ answer, Confined source target (rest (.ok answer)))
    (keeps : ∀ cause, ∃ other, rest (.error cause) = .done (.error other)) :
    Confined source target (process.bind rest) := by
  have refusal {γ : Type} {next : Except FileFault γ → Process (Except ε α)}
      (stops : ∀ fault, ∃ cause, next (.error fault) = .done (.error cause)) (fault : FileFault) :
      ∃ cause, (next (.error fault)).bind rest = .done (.error cause) := by
    obtain ⟨cause, stopped⟩ := stops fault
    obtain ⟨other, kept⟩ := keeps cause
    exact ⟨other, by rw [stopped, Process.bind, kept]⟩
  induction confined with
  | done result =>
      cases result with
      | ok answer => exact later answer
      | error cause =>
          obtain ⟨other, kept⟩ := keeps cause
          rw [Process.bind, kept]
          exact .done (.error other)
  | read _ stops ih => exact .read ih (refusal stops)
  | write _ stops ih => exact .write ih (refusal stops)

theorem bind {work : ExceptT ε Process α} {rest : α → ExceptT ε Process β}
    (first : Confined source target work.run)
    (later : ∀ answer, Confined source target (rest answer).run) :
    Confined source target (work >>= rest).run := by
  change Confined source target (work.run.bind (ExceptT.bindCont rest))
  exact first.goOn later fun cause => ⟨cause, rfl⟩

/-- Work is confined whatever its failures are called. -/
theorem use (blame : ε → φ) {process : Process (Except ε α)}
    (confined : Confined source target process) :
    Confined source target (Work.use blame process).run := by
  change Confined source target (process.bind fun result => .done (result.mapError blame))
  exact confined.goOn (fun answer => .done (.ok answer)) fun cause => ⟨blame cause, rfl⟩

theorem settle (blame : ε → φ) (result : Except ε α) :
    Confined source target (Work.settle blame result : ExceptT φ Process α).run :=
  .done (result.mapError blame)

theorem useRead (blame : FileFault → φ) :
    Confined source target (Work.use blame (FileAccess.read source) : ExceptT φ Process _).run :=
  .read (fun reply => .done (reply.mapError blame)) fun fault => ⟨blame fault, rfl⟩

theorem useWrite (blame : FileFault → φ) (bytes : List UInt8) :
    Confined source target
      (Work.use blame (FileAccess.write target bytes) : ExceptT φ Process _).run :=
  .write (fun reply => .done (reply.mapError blame)) fun fault => ⟨blame fault, rfl⟩

theorem save (rendering : Rendering) (graph : Graph) :
    Confined source target (ProgramGraph.save rendering graph target).run := by
  have inner : Confined source target (rendering.save graph target).run := by
    apply (useWrite SaveFault.file []).bind
    intro _
    apply (settle SaveFault.graph (rendering.content graph)).bind
    intro content
    exact useWrite SaveFault.file content.bytes
  exact inner.use (Failure.notSaved target)

/-- The work on a source file reads this file and writes its output file. -/
theorem extractFile (rendering : Rendering) (prune : Bool) (input directory : Path) :
    Confined input (rendering.outputOf directory input)
      (ProgramGraph.extractFile rendering prune input directory).run := by
  apply Confined.bind
  case first =>
    apply (useRead _).bind
    intro bytes
    exact settle _ (Utf8.textOf bytes)
  case later =>
    intro text
    apply Confined.bind
    case first =>
      apply (settle _ (Extraction.ofSource prune input.text text)).bind
      intro extraction
      apply (save rendering extraction.graph).bind
      intro _
      exact .done (.ok extraction.graph)
    case later => exact fun _ => .done (.ok _)

end Confined

end Process

end ProgramGraph
