import ProgramGraph.Files.Access

/-!
# Trees of files

A tree holds files and directories by the names that lead to them from its root.  The
root is a directory that is always there, and paths start at it.
-/

namespace ProgramGraph

/-- What names in a tree lead to. -/
inductive FileEntry where
  | file (bytes : List UInt8)
  | directory
  deriving DecidableEq, Repr, Inhabited

/-- Files and directories by the names that lead to them. -/
structure FileTree where
  entries : List (List String × FileEntry) := []
  deriving DecidableEq, Repr, Inhabited

namespace FileTree

/-! ## Entries -/

/-- What names lead to from the root. -/
def entry? (tree : FileTree) (names : List String) : Option FileEntry :=
  if names.isEmpty then some .directory
  else (tree.entries.find? (·.1 == names)).map (·.2)

/-- Put an entry where names lead to, in place of an old one. -/
def insert (tree : FileTree) (names : List String) (entry : FileEntry) : FileTree where
  entries := tree.entries.filter (·.1 != names) ++ [(names, entry)]

/-! ## Places -/

/-- The names that lead to a piece of a path from a directory. -/
def step (here : List String) (piece : String) : List String :=
  if Path.isIdle piece then here
  else if piece == ".." then here.dropLast
  else here ++ [piece]

/-- Follow the pieces of a path.  Each of them but the last has to lead to a
directory. -/
def follow (tree : FileTree) (here : List String) : List String → Except FileFault (List String)
  | [] => .ok here
  | piece :: pieces =>
      match tree.entry? here with
      | some .directory => follow tree (step here piece) pieces
      | some (.file _) => .error .notDirectory
      | none => .error .missing

/-- The names that a path leads to.  An empty path leads nowhere. -/
def locate (tree : FileTree) (path : Path) : Except FileFault (List String) :=
  if path.text.isEmpty then .error .missing else tree.follow [] path.pieces

/-! ## Files -/

/-- The bytes of the file at a path. -/
def read (tree : FileTree) (path : Path) : Except FileFault (List UInt8) := do
  match tree.entry? (← tree.locate path) with
  | some (.file bytes) => return bytes
  | some .directory => throw .isDirectory
  | none => throw .missing

/-- The tree with a file of these bytes at a path.  A path that ends in a slash is one
of a directory, whether it exists or not. -/
def write (tree : FileTree) (path : Path) (bytes : List UInt8) : Except FileFault FileTree := do
  let pieces := (path.pieces.reverse.dropWhile (·.isEmpty)).reverse
  let names ← if path.text.isEmpty then .error .missing else tree.follow [] pieces
  if pieces.length < path.pieces.length || tree.entry? names == some .directory then
    throw .isDirectory
  return tree.insert names (.file bytes)

/-! ## Directories -/

/-- Make the directories on the way along the pieces of a path, given the directory
where it starts. -/
def makeFrom (tree : FileTree) (here : List String) : List String → Except FileFault FileTree
  | [] => .ok tree
  | piece :: pieces =>
      let next := step here piece
      match tree.entry? next with
      | some .directory => makeFrom tree next pieces
      | some (.file _) => .error (if pieces.all (·.isEmpty) then .taken else .notDirectory)
      | none => makeFrom (tree.insert next .directory) next pieces

/-- Make the directories that a path leads to, as far as they are missing. -/
def makeDirectories (tree : FileTree) (path : Path) : Except FileFault FileTree :=
  tree.makeFrom [] path.pieces

/-- Go on with a changed tree, or keep the old one after a refusal. -/
def commit (result : Except FileFault FileTree) : StateM FileTree (Except FileFault Unit) := do
  match result with
  | .ok tree =>
      set tree
      return .ok ()
  | .error fault => return .error fault

instance : FileAccess (StateM FileTree) where
  read path := return (← get).read path
  write path bytes := do commit ((← get).write path bytes)
  makeDirectories path := do commit ((← get).makeDirectories path)

end FileTree

end ProgramGraph
