import ProgramGraph.Failure

/-!
# Work on files

A source file is read and its graph is written; a record is read and its graph is
written again; settings are read.  Each piece of work ends with a result or
with a failure, and what it did to the files before it failed stays done.
-/

namespace ProgramGraph

/-- Work on files that ends with a result or a failure. -/
abbrev Work (m : Type → Type) := ExceptT Failure m

variable {m : Type → Type} [Monad m]

namespace Work

/-- Take a result, or fail for the reason that it gives. -/
def settle {ε φ α : Type} (blame : ε → φ) (result : Except ε α) : ExceptT φ m α :=
  ExceptT.mk (pure (result.mapError blame))

/-- Use files, or fail for the reason that they give. -/
def use {ε φ α : Type} (blame : ε → φ) (run : m (Except ε α)) : ExceptT φ m α :=
  ExceptT.mk (Except.mapError blame <$> run)

end Work

variable [FileAccess m]

open Work

/-! ## Reading -/

/-- The text of a file. -/
def readText (blame : FileFault → Failure) (path : Path) : Work m String := do
  let bytes ← use blame (FileAccess.read path)
  settle (fun _ => blame .notText) (Utf8.textOf bytes)

/-- The record in a file.  A file with the extension `json` holds JSON, any other file
bytes. -/
def loadRecord (path : Path) : Work m Record := do
  let blame : FileFault → Failure
    | .isDirectory => .noRecordFile path
    | fault => .unreadRecord path fault
  let bytes ← use blame (FileAccess.read path)
  if bytes.isEmpty then
    throw (.emptyRecord path)
  else if path.extension? = some "json" then
    settle .notJson (Record.ofJson bytes)
  else
    settle .notBinary (Record.ofBytes bytes)

/-- The settings in a file. -/
def loadSettings (path : Path) : Work m Settings := do
  let text ← readText (.unreadSettings path) path
  settle (.notSettings path) (Settings.ofToml text)

/-! ## Writing -/

/-- Put a graph into a file.  The file is made empty before the graph is looked at, so
a graph that cannot be shown leaves an empty file. -/
def Rendering.save (rendering : Rendering) (graph : Graph) (path : Path) :
    ExceptT SaveFault m Unit := do
  use .file (FileAccess.write path [])
  let content ← settle .graph (rendering.content graph)
  use .file (FileAccess.write path content.bytes)

/-- Put a graph into a file as a piece of work. -/
def save (rendering : Rendering) (graph : Graph) (path : Path) : Work m Unit :=
  use (.notSaved path) (rendering.save graph path).run

/-! ## Extraction and conversion -/

/-- Write the graph of a source text, and answer with it. -/
def extractText (rendering : Rendering) (prune : Bool) (name source : String) (output : Path) :
    Work m Graph := do
  let extraction ← settle (.notExtracted name) (Extraction.ofSource prune name source)
  save rendering extraction.graph output
  return extraction.graph

/-- Write the graph of a source file into a directory, and answer where it is. -/
def extractFile (rendering : Rendering) (prune : Bool) (input directory : Path) : Work m Path := do
  let source ← readText (.unreadSource input) input
  let output := Path.ofOutput input directory rendering.format.extension
  let _ ← extractText rendering prune input.text source output
  return output

/-- Write the graph of a record file, and answer with it. -/
def convertFile (rendering : Rendering) (input output : Path) : Work m Graph := do
  let record ← loadRecord input
  let graph ← settle (.inconsistent input) (Graph.ofRecord record)
  save rendering graph output
  return graph

/-- Write the graphs of source files into a directory, one after the other.  A failure
on one file does not keep the others from being worked on. -/
def extractFiles (rendering : Rendering) (prune : Bool) (inputs : List Path) (directory : Path) :
    m (List (Except Failure Path)) :=
  inputs.mapM fun input => (extractFile rendering prune input directory).run

end ProgramGraph
