import ProgramGraph.Extraction.Basic
import ProgramGraph.Files.Access
import ProgramGraph.Settings

/-!
# Why work on files fails

A failure says what was being done to which file, and why it could not be done.  Its
text is a chain: the work first, then the reason, then the reason behind that if
there is one.
-/

namespace ProgramGraph

/-- Why a graph cannot be put into a file. -/
inductive SaveFault where
  /-- The graph cannot be shown as it is asked for. -/
  | graph (cause : GraphError)
  /-- The file cannot be written. -/
  | file (cause : FileFault)
  deriving DecidableEq, Repr

/-- The texts of a refusal. -/
def SaveFault.chain : SaveFault → List String
  | graph cause => [cause.message]
  | file cause => ["I/O error: " ++ cause.message, cause.message]

/-- Why work on files fails. -/
inductive Failure where
  /-- A source file cannot be read. -/
  | unreadSource (path : Path) (cause : FileFault)
  /-- A source text has no graph. -/
  | notExtracted (name : String) (cause : ExtractionError)
  /-- A graph cannot be put into a file. -/
  | notSaved (path : Path) (cause : SaveFault)
  /-- The file of a record cannot be opened. -/
  | unreadRecord (path : Path) (cause : FileFault)
  /-- The file of a record is a directory. -/
  | noRecordFile (path : Path)
  /-- The file of a record is empty. -/
  | emptyRecord (path : Path)
  /-- The file of a record holds other JSON, or none. -/
  | notJson (cause : Json.Fault)
  /-- The file of a record holds other bytes. -/
  | notBinary (cause : Binary.Fault)
  /-- A record is the record of no graph. -/
  | inconsistent (path : Path) (cause : GraphError)
  /-- The file of settings cannot be read. -/
  | unreadSettings (path : Path) (cause : FileFault)
  /-- The file of settings holds no settings. -/
  | notSettings (path : Path) (cause : Settings.Fault)
  /-- The directory for the graphs cannot be made. -/
  | noDirectory (path : Path) (cause : FileFault)
  deriving DecidableEq, Repr

/-- The texts of a failure, the work first. -/
def Failure.chain : Failure → List String
  | unreadSource path cause => ["Cannot read input file " ++ path.text, cause.message]
  | notExtracted name cause => ["Failed to extract " ++ name, cause.message]
  | notSaved path cause => ("Failed to write " ++ path.text) :: cause.chain
  | unreadRecord path cause => ["Failed to open " ++ path.text, cause.message]
  | noRecordFile path => ["Failed to map " ++ path.text, "No such device (os error 19)"]
  | emptyRecord path => [path.text ++ " is empty"]
  | notJson cause => ["Invalid JSON graph record", cause.message]
  | notBinary cause => ["Invalid bincode graph record", cause.message]
  | inconsistent path cause => ["Inconsistent graph in " ++ path.text, cause.message]
  | unreadSettings path cause => ["Failed to read config " ++ path.text, cause.message]
  | notSettings path cause => ["Invalid config " ++ path.text, cause.message]
  | noDirectory path cause => ["Cannot create output directory " ++ path.text, cause.message]

end ProgramGraph
