import ProgramGraph.CommandLine.Run

/-!
# The program

The program does what its arguments ask for on the files of the machine and ends with
the exit code of the outcome.
-/

namespace ProgramGraph

/-- The refusal that an error of the machine stands for. -/
def FileFault.ofError : IO.Error → FileFault
  | .noFileOrDirectory .. => .missing
  | .alreadyExists .. => .taken
  | .inappropriateType _ code _ => if code = 21 then .isDirectory else .notDirectory
  | cause => .other (toString cause)

/-- Run an action on files, and answer with a refusal instead of an error. -/
def attemptOnFile {α : Type} (action : IO α) : IO (Except FileFault α) := do
  try return .ok (← action)
  catch cause => return .error (.ofError cause)

instance : FileAccess IO where
  read path := do
    attemptOnFile do return (← IO.FS.readBinFile path.text).toList
  write path bytes := do
    attemptOnFile (IO.FS.writeBinFile path.text (ByteArray.mk bytes.toArray))
  makeDirectories path := do
    attemptOnFile (IO.FS.createDirAll path.text)

namespace CommandLine

/-- What the program says about itself. -/
def usage : String :=
  "\n".intercalate
    ["Build and convert feature graphs of source files",
      "",
      "Usage: program-graph [-v] extract -i FILE... -o DIRECTORY [--prune] [OPTIONS]",
      "       program-graph [-v] convert -i FILE -o FILE [OPTIONS]",
      "",
      "Options:",
      "  -f, --format FORMAT   dot, json or bincode",
      "      --verbose-dot     label nodes with id, kind and stretch",
      "      --config FILE     read settings from a file",
      "  -v, --verbose         tell more",
      "  -h, --help            print help",
      "  -V, --version         print the version"]

/-- Say how the program ended. -/
def report : Ending → IO Unit
  | .done => return ()
  | .stopped .help => IO.println usage
  | .stopped .version => IO.println "program-graph 0.1.0"
  | .stopped (.misuse cause) => do
      IO.eprintln ("error: " ++ cause.message)
      IO.eprintln usage
  | .failed cause => do
      match cause with
      | .inputs causes _ =>
          causes.forM fun cause => IO.eprintln (": ".intercalate cause.chain)
      | .work _ => return ()
      IO.eprintln ("Error: " ++ "\n  ".intercalate cause.chain)

end CommandLine

end ProgramGraph

/-- Do what the arguments ask for. -/
def main (arguments : List String) : IO UInt32 := do
  let ending : ProgramGraph.CommandLine.Ending ← ProgramGraph.CommandLine.run arguments
  ProgramGraph.CommandLine.report ending
  return ending.exitCode.toUInt32
