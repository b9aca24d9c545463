import ProgramGraph.Files.Tree

/-!
# Processes on files

A process is a program on files that is taken apart into its requests: it has an answer,
or it asks for one thing to be done to files and goes on with the reply.  Several processes
can work on one tree of files.  Whose turn it is is told by a schedule, and with each turn
one process gets one request done, whatever the others are about to do.
-/

namespace ProgramGraph

/-- A program on files as its requests, each with what the program does upon the reply. -/
inductive Process (α : Type) where
  | done (answer : α)
  | read (path : Path) (next : Except FileFault (List UInt8) → Process α)
  | write (path : Path) (bytes : List UInt8) (next : Except FileFault Unit → Process α)
  | makeDirectories (path : Path) (next : Except FileFault Unit → Process α)

namespace Process

variable {α β : Type}

/-- Go on with the answer of a process. -/
def bind : Process α → (α → Process β) → Process β
  | done answer, rest => rest answer
  | read path next, rest => read path fun reply => (next reply).bind rest
  | write path bytes next, rest => write path bytes fun reply => (next reply).bind rest
  | makeDirectories path next, rest => makeDirectories path fun reply => (next reply).bind rest

instance : Monad Process where
  pure := done
  bind := bind

instance : FileAccess Process where
  read path := read path done
  write path bytes := write path bytes done
  makeDirectories path := makeDirectories path done

/-! ## One process -/

/-- Get all requests of a process done, one after the other. -/
def perform : Process α → StateM FileTree α
  | done answer => return answer
  | read path next => do (next (← FileAccess.read path)).perform
  | write path bytes next => do (next (← FileAccess.write path bytes)).perform
  | makeDirectories path next => do (next (← FileAccess.makeDirectories path)).perform

/-- Get the next request of a process done.  A process with an answer stays as it is. -/
def step : Process α → StateM FileTree (Process α)
  | done answer => return done answer
  | read path next => return next (← FileAccess.read path)
  | write path bytes next => return next (← FileAccess.write path bytes)
  | makeDirectories path next => return next (← FileAccess.makeDirectories path)

/-! ## Several processes -/

/-- Get the requests of several processes done in the turns of a schedule, which names the
process that has the turn.  What is left after the schedule is done process by process, so
every order in which the requests may be done is the order of some schedule. -/
def atOnce : List Nat → List (Process α) → StateM FileTree (List α)
  | [], workers => workers.mapM perform
  | turn :: turns, workers => do
      match workers[turn]? with
      | some worker => atOnce turns (workers.set turn (← worker.step))
      | none => atOnce turns workers

end Process

end ProgramGraph
