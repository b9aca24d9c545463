/-!
# Paths

A path is a text whose pieces between slashes are names.  Empty pieces and single
dots lead nowhere.  The name of a file is the last piece that leads somewhere, unless
that leads up.  Its extension follows its last dot; a dot at its beginning is part of
its stem.
-/

namespace ProgramGraph

/-- Where a file or a directory is. -/
structure Path where
  text : String
  deriving DecidableEq, Repr, Inhabited

namespace Path

/-! ## Pieces -/

/-- The pieces of characters between slashes, one more than there are slashes. -/
def split : List Char → List (List Char)
  | [] => [[]]
  | c :: rest =>
      if c = '/' then
        [] :: split rest
      else
        match split rest with
        | [] => [[c]]
        | piece :: pieces => (c :: piece) :: pieces

/-- The pieces of a path between slashes. -/
def pieces (path : Path) : List String :=
  (split path.text.toList).map String.ofList

/-- Whether a piece leads nowhere. -/
def isIdle (piece : String) : Bool :=
  piece == "" || piece == "."

/-- The name that a path ends in. -/
def name? (path : Path) : Option String :=
  (path.pieces.filter fun piece => !isIdle piece).getLast?.filter (· != "..")

/-! ## Stems and extensions -/

/-- A name before its last dot and after it.  There is nothing after it if the name
has no dot, or none but its first character. -/
def splitName (name : List Char) : List Char × Option (List Char) :=
  let isPlain (c : Char) : Bool := c != '.'
  let stem := (name.reverse.dropWhile isPlain).tail.reverse
  if stem.isEmpty then (name, none) else (stem, some (name.reverse.takeWhile isPlain).reverse)

/-- The name that a path ends in without its extension. -/
def stem? (path : Path) : Option String :=
  path.name?.map fun name => String.ofList (splitName name.toList).1

/-- The extension of the name that a path ends in. -/
def extension? (path : Path) : Option String :=
  path.name?.bind fun name => (splitName name.toList).2.map String.ofList

/-! ## Longer paths -/

/-- A path within a directory.  A path from the root stays as it is. -/
def join (directory path : Path) : Path :=
  let between :=
    if directory.text.isEmpty || directory.text.toList.getLast? == some '/' then "" else "/"
  if path.text.toList.head? == some '/' then path
  else ⟨directory.text ++ between ++ path.text⟩

/-- Where the graph of a file is written: in a directory under the stem of the file.
A path that ends in no name has the stem `graph`. -/
def ofOutput (input directory : Path) (extension : String) : Path :=
  directory.join ⟨input.stem?.getD "graph" ++ "." ++ extension⟩

end Path

end ProgramGraph
