import ProgramGraph.CommandLine.Switch
import ProgramGraph.Path

/-!
# Tasks

A command line names one of two tasks.  The first one extracts the graphs of source
files into a directory; the second one writes the graph of a record file again.  Both
may name a file of settings, and what the command line says itself wins over that
file.
-/

namespace ProgramGraph

/-- What a command line says about how graphs are written. -/
structure Choices where
  /-- A file of settings. -/
  settings : Option Path := none
  format : Option Format := none
  verboseLabels : Bool := false
  deriving DecidableEq, Repr

/-- What is to be done. -/
inductive Task where
  /-- Extract the graphs of source files into a directory. -/
  | extract (inputs : List Path) (output : Path) (prune : Bool) (choices : Choices)
  /-- Write the graph of a record file again. -/
  | convert (input output : Path) (choices : Choices)
  deriving DecidableEq, Repr

namespace CommandLine

/-! ## Switches of the commands -/

/-- The switches that stand in all places. -/
def everywhere : List Switch :=
  [{ key := .talk, name := "verbose", letter := some 'v' },
    { key := .help, name := "help", letter := some 'h' }]

/-- The switches before a command. -/
def beforeCommand : List Switch :=
  { key := .version, name := "version", letter := some 'V' } :: everywhere

/-- The switches that say how graphs are written. -/
def choosing : List Switch :=
  [{ key := .format, name := "format", letter := some 'f', taken := .format },
    { key := .verboseLabels, name := "verbose-dot" },
    { key := .settings, name := "config", taken := .path }]

/-- The switches of the first task. -/
def extracting : List Switch :=
  [{ key := .input, name := "input", letter := some 'i', taken := .path, repeats := true },
    { key := .output, name := "output", letter := some 'o', taken := .path },
    { key := .prune, name := "prune" }] ++ choosing ++ everywhere

/-- The switches of the second task. -/
def converting : List Switch :=
  [{ key := .input, name := "input", letter := some 'i', taken := .path },
    { key := .output, name := "output", letter := some 'o', taken := .path }] ++
    choosing ++ everywhere

/-! ## Commands -/

/-- A first word that is no switch. -/
inductive Command where
  | extract
  | convert
  | help
  deriving DecidableEq, Repr

/-- The command of a name. -/
def Command.ofName? : String → Option Command
  | "extract" => some extract
  | "convert" => some convert
  | "help" => some help
  | _ => none

/-- Whether a word is the name of a command. -/
def isCommand (word : String) : Bool :=
  (Command.ofName? word).isSome

/-- The only path that a switch gives. -/
def State.path (state : State) (key : Key) (name : String) : Except Stop Path :=
  match state.values key with
  | [] => .error (.misuse (.missingSwitch name))
  | text :: _ => .ok ⟨text⟩

/-- What switches say about how graphs are written. -/
def State.choices (state : State) : Choices where
  settings := (state.values .settings).head?.map (⟨·⟩)
  format := (state.values .format).head?.bind Format.ofName?
  verboseLabels := state.has .verboseLabels

/-- The switches among the arguments of a command. -/
def readAll (switches : List Switch) (arguments : List String) : Except Stop State :=
  (State.scan switches (fun _ => false) {} arguments).map (·.1)

/-- The first task with its arguments. -/
def extraction (arguments : List String) : Except Stop Task := do
  let state ← readAll extracting arguments
  let _ ← state.path .input "input"
  let output ← state.path .output "output"
  return .extract ((state.values .input).map (⟨·⟩)) output (state.has .prune) state.choices

/-- The second task with its arguments. -/
def conversion (arguments : List String) : Except Stop Task := do
  let state ← readAll converting arguments
  return .convert (← state.path .input "input") (← state.path .output "output") state.choices

/-- What the words after the command `help` ask for.  Commands have no commands
below them. -/
def helpOn : List String → Stop
  | [] => .help
  | name :: names =>
      if isCommand name then
        match names with
        | [] => .help
        | other :: _ => .misuse (.unknownCommand other)
      else
        .misuse (.unknownCommand name)

/-- The task that a command line names. -/
def taskOf (arguments : List String) : Except Stop Task := do
  let (_, rest) ← State.scan beforeCommand isCommand {} arguments
  match rest with
  | [] => .error (.misuse .missingCommand)
  | name :: arguments =>
      match Command.ofName? name with
      | some .extract => extraction arguments
      | some .convert => conversion arguments
      | some .help => .error (helpOn arguments)
      | none => .error (.misuse (.unknownCommand name))

end CommandLine

end ProgramGraph
