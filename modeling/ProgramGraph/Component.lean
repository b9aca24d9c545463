import ProgramGraph.Path

/-!
# Components of paths

A path is read as a list of components: the root if it begins with a slash, the pieces that
lead up and the names.  A dot counts only at the very front of a path, and what stands between
two slashes in a row counts nowhere.  Two paths are the same if they have the same components,
so a slash at the end makes no difference.
-/

namespace ProgramGraph

/-- One component of a path. -/
inductive Component where
  | root
  /-- A dot at the front. -/
  | current
  /-- Two dots. -/
  | up
  | named (name : String)
  deriving DecidableEq, Repr

/-- The component of a piece that leads somewhere. -/
def Component.ofPiece (piece : String) : Component :=
  if piece == ".." then .up else .named piece

namespace Path

/-- The components that stand for the beginning of a path and not for one of its pieces. -/
def lead (chars : List Char) : List Component :=
  if chars.head? == some '/' then [.root]
  else if (split chars).head? == some ['.'] then [.current]
  else []

/-- The components of a path. -/
def components (path : Path) : List Component :=
  lead path.text.toList ++ (path.pieces.filter (!isIdle ·)).map Component.ofPiece

/-- The components of the path that holds the last one.  Nothing holds the root or an empty
path. -/
def parent? (path : Path) : Option (List Component) :=
  match path.components.getLast? with
  | none => none
  | some .root => none
  | some _ => some path.components.dropLast

end Path

end ProgramGraph
