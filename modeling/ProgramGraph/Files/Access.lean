import ProgramGraph.Path

/-!
# Access to files

A program that works on files reads a file as a whole, writes it as a whole, and
makes directories.  What it works on is left open: the files of a machine, or a tree
of files that is a value.
-/

namespace ProgramGraph

/-- Why a file cannot be used. -/
inductive FileFault where
  /-- A piece of the path does not exist. -/
  | missing
  /-- A file is where a directory is to be made. -/
  | taken
  /-- A piece of the path that leads on is a file. -/
  | notDirectory
  /-- The path leads to a directory. -/
  | isDirectory
  /-- The bytes of the file stand for no text. -/
  | notText
  /-- Any other refusal, in the words of the machine. -/
  | other (words : String)
  deriving DecidableEq, Repr, Inhabited

/-- The text of a refusal. -/
def FileFault.message : FileFault → String
  | missing => "No such file or directory (os error 2)"
  | taken => "File exists (os error 17)"
  | notDirectory => "Not a directory (os error 20)"
  | isDirectory => "Is a directory (os error 21)"
  | notText => "stream did not contain valid UTF-8"
  | other words => words

/-- What a program does to files. -/
class FileAccess (m : Type → Type) where
  /-- The bytes of a file. -/
  read : Path → m (Except FileFault (List UInt8))
  /-- Make a file of these bytes, in place of an old file. -/
  write : Path → List UInt8 → m (Except FileFault Unit)
  /-- Make a directory and those that lead to it, as far as they are missing. -/
  makeDirectories : Path → m (Except FileFault Unit)

end ProgramGraph
