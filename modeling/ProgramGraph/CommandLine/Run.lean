import ProgramGraph.CommandLine.Task
import ProgramGraph.Files.Process
import ProgramGraph.Work

/-!
# Doing a task

Settings are read before anything else.  If source files fail the others are still
worked on, and the task fails as a whole.  Source files are worked on one after the other,
or by one process for each of them.
-/

namespace ProgramGraph

/-- Why a task fails. -/
inductive TaskFailure where
  /-- The work cannot go on. -/
  | work (cause : Failure)
  /-- Some of the source files fail. -/
  | inputs (causes : List Failure) (total : Nat)
  deriving DecidableEq, Repr

/-- The texts of a failure, the work first. -/
def TaskFailure.chain : TaskFailure → List String
  | work cause => cause.chain
  | inputs causes total => [s!"{causes.length} of {total} inputs failed"]

/-- The settings of a task: those of the file that it names, or else the default ones,
with what the command line says put over them. -/
def Choices.withSettings (choices : Choices) (settings : Settings) : Settings :=
  { settings with
    format := choices.format.getD settings.format
    isVerbose := settings.isVerbose || choices.verboseLabels }

variable {m : Type → Type} [Monad m] [FileAccess m]

/-- The settings of a task. -/
def Choices.resolve (choices : Choices) : Work m Settings := do
  match choices.settings with
  | some path => return choices.withSettings (← loadSettings path)
  | none => return choices.withSettings {}

/-- The failures among results. -/
def failures {α : Type} (results : List (Except Failure α)) : List Failure :=
  results.filterMap fun
    | .error cause => some cause
    | .ok _ => none

/-- The settings of a task that writes into a directory, which is made as far as it is
missing. -/
def prepare (output : Path) (choices : Choices) : ExceptT TaskFailure m Settings := do
  let settings ← Work.use .work choices.resolve.run
  Work.use (fun cause => .work (.noDirectory output cause)) (FileAccess.makeDirectories output)
  return settings

/-- Extract the graphs of source files as a task, in a given way of working on them. -/
def runExtractionBy
    (extract : Rendering → Bool → List Path → Path → m (List (Except Failure Path)))
    (inputs : List Path) (output : Path) (prune : Bool) (choices : Choices) :
    ExceptT TaskFailure m Unit := do
  let settings ← prepare output choices
  let results ← (extract settings.toRendering (settings.prune || prune) inputs output : m _)
  if (failures results).isEmpty then return ()
  else throw (.inputs (failures results) inputs.length)

/-- Extract the graphs of source files as a task, one after the other. -/
def runExtraction (inputs : List Path) (output : Path) (prune : Bool) (choices : Choices) :
    ExceptT TaskFailure m Unit :=
  runExtractionBy extractFiles inputs output prune choices

/-- Write the graphs of source files into a directory by one process for each file, in the
turns of a schedule. -/
def extractInTurns (schedule : List Nat) (rendering : Rendering) (prune : Bool)
    (inputs : List Path) (directory : Path) : StateM FileTree (List (Except Failure Path)) :=
  Process.atOnce schedule <| inputs.map fun input =>
    (extractFile (m := Process) rendering prune input directory).run

/-- Write the graph of a record file again as a task. -/
def runConversion (input output : Path) (choices : Choices) : ExceptT TaskFailure m Unit := do
  let settings ← Work.use .work choices.resolve.run
  let _ ← Work.use .work (convertFile settings.toRendering input output).run

/-- Do a task. -/
def Task.run : Task → ExceptT TaskFailure m Unit
  | extract inputs output prune choices => runExtraction inputs output prune choices
  | convert input output choices => runConversion input output choices

/-! ## Exit codes -/

namespace CommandLine

/-- How a program ends. -/
inductive Ending where
  | done
  | stopped (stop : Stop)
  | failed (cause : TaskFailure)
  deriving DecidableEq, Repr

/-- The exit code of a program: zero if it did what it was asked for, one if it
could not, two if it was not asked for anything it knows. -/
def Ending.exitCode : Ending → Nat
  | done => 0
  | stopped .help => 0
  | stopped .version => 0
  | failed _ => 1
  | stopped (.misuse _) => 2

/-- Do what a command line asks for. -/
def run (arguments : List String) : m Ending := do
  match taskOf arguments with
  | .error stop => return .stopped stop
  | .ok task =>
      match ← task.run.run with
      | .ok _ => return .done
      | .error cause => return .failed cause

end CommandLine

end ProgramGraph
