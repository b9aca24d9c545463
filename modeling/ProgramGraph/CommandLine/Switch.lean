import ProgramGraph.Rendering

/-!
# Switches of a command line

A switch is written as two dashes and a name, or as one dash and a letter; letters may
share a dash.  The value of a switch follows it as the next argument, after an equals
sign, or right after its letter.  The next argument is a value unless it begins with a
dash and goes on.  Arguments are read from left to right, and the first one that asks
for help or is out of place ends the reading.
-/

namespace ProgramGraph.CommandLine

/-- What an argument can be about. -/
inductive Key where
  | input
  | output
  | prune
  | format
  | verboseLabels
  | settings
  | talk
  | help
  | version
  deriving DecidableEq, Repr

/-- What a switch takes. -/
inductive Taken where
  | nothing
  | path
  | format
  deriving DecidableEq, Repr

/-- Whether a text is a value that a switch takes. -/
def Taken.accepts : Taken → String → Bool
  | nothing, _ => false
  | path, value => !value.isEmpty
  | format, value => (Format.ofName? value).isSome

/-- A switch. -/
structure Switch where
  key : Key
  name : String
  letter : Option Char := none
  taken : Taken := .nothing
  /-- Whether it may be given several times. -/
  repeats : Bool := false
  deriving DecidableEq, Repr

/-- What is wrong with a command line. -/
inductive Misuse where
  | unknownSwitch (shown : String)
  | unexpectedArgument (shown : String)
  | unknownCommand (name : String)
  | missingCommand
  | missingValue (name : String)
  | unexpectedValue (name : String)
  | invalidValue (name value : String)
  | repeatedSwitch (name : String)
  | missingSwitch (name : String)
  deriving DecidableEq, Repr

/-- The text of a misuse. -/
def Misuse.message : Misuse → String
  | unknownSwitch shown => s!"unexpected argument '{shown}' found"
  | unexpectedArgument shown => s!"unexpected argument '{shown}' found"
  | unknownCommand name => s!"unrecognized subcommand '{name}'"
  | missingCommand => "a subcommand is required"
  | missingValue name => s!"a value is required for '--{name}' but none was supplied"
  | unexpectedValue name => s!"'--{name}' takes no value"
  | invalidValue name value => s!"invalid value '{value}' for '--{name}'"
  | repeatedSwitch name => s!"the argument '--{name}' cannot be used multiple times"
  | missingSwitch name => s!"the argument '--{name}' is required"

/-- Why a command line is no task. -/
inductive Stop where
  /-- Help is asked for. -/
  | help
  /-- The version is asked for. -/
  | version
  | misuse (cause : Misuse)
  deriving DecidableEq, Repr

/-! ## Reading -/

/-- What is known after some arguments. -/
structure State where
  /-- The switches that were given with their values, the latest first. -/
  given : List (Key × String) := []
  /-- The switch that still needs its value. -/
  pending : Option Switch := none
  /-- Whether two dashes alone ended the switches. -/
  isClosed : Bool := false
  deriving Repr

namespace State

/-- The values of a switch in the order in which they were given. -/
def values (state : State) (key : Key) : List String :=
  (state.given.filterMap fun (other, value) => if other = key then some value else none).reverse

/-- Whether a switch was given. -/
def has (state : State) (key : Key) : Bool :=
  state.given.any (·.1 = key)

/-- Take a switch with its value. -/
def give (state : State) (switch : Switch) (value : String) : Except Stop State :=
  match switch.key with
  | .help => .error .help
  | .version => .error .version
  | key =>
      if state.has key && !switch.repeats then
        .error (.misuse (.repeatedSwitch switch.name))
      else if switch.taken ≠ .nothing && !switch.taken.accepts value then
        .error (.misuse (.invalidValue switch.name value))
      else
        .ok { state with given := (key, value) :: state.given, pending := none }

/-- Take a switch that is written with its name; a value may follow an equals
sign. -/
def readName (switches : List Switch) (state : State) (chars : List Char) :
    Except Stop State :=
  let name := String.ofList (chars.takeWhile (· != '='))
  let value? : Option String :=
    match chars.dropWhile (· != '=') with
    | [] => none
    | _ :: value => some (String.ofList value)
  match switches.find? (·.name == name) with
  | none => .error (.misuse (.unknownSwitch ("--" ++ name)))
  | some switch =>
      match switch.taken, value? with
      | .nothing, none => state.give switch ""
      | .nothing, some _ => .error (.misuse (.unexpectedValue name))
      | _, some value => state.give switch value
      | _, none => .ok { state with pending := some switch }

/-- Take the switches that are written as letters after one dash.  What follows the
letter of a switch with a value is its value. -/
def readLetters (switches : List Switch) (state : State) : List Char → Except Stop State
  | [] => .ok state
  | letter :: chars =>
      match switches.find? (·.letter == some letter) with
      | none => .error (.misuse (.unknownSwitch ("-" ++ letter.toString)))
      | some switch =>
          match switch.taken, chars with
          | .nothing, _ => do readLetters switches (← state.give switch "") chars
          | _, [] => .ok { state with pending := some switch }
          | _, '=' :: value => state.give switch (String.ofList value)
          | _, value => state.give switch (String.ofList value)

/-- Take one argument. -/
def step (switches : List Switch) (state : State) (argument : String) : Except Stop State :=
  if state.isClosed then
    .error (.misuse (.unexpectedArgument argument))
  else
    match argument.toList, state.pending with
    | '-' :: _ :: _, some switch => .error (.misuse (.missingValue switch.name))
    | _, some switch => state.give switch argument
    | ['-', '-'], none => .ok { state with isClosed := true }
    | '-' :: '-' :: chars, none => state.readName switches chars
    | '-' :: letter :: letters, none => state.readLetters switches (letter :: letters)
    | _, none => .error (.misuse (.unexpectedArgument argument))

/-- Take arguments up to the name of a command or to their end.  The answer holds the
arguments from that name on. -/
def scan (switches : List Switch) (isCommand : String → Bool) (state : State) :
    List String → Except Stop (State × List String)
  | [] =>
      match state.pending with
      | some switch => .error (.misuse (.missingValue switch.name))
      | none => .ok (state, [])
  | argument :: arguments =>
      if isCommand argument && !state.isClosed && state.pending.isNone then
        .ok (state, argument :: arguments)
      else do
        scan switches isCommand (← state.step switches argument) arguments

end State

end ProgramGraph.CommandLine
