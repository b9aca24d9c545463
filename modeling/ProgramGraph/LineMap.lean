/-!
# Lines of a text

A line map remembers where the lines of one text begin.  Positions are counted
in characters from zero, lines from one and columns from zero; only the line
feed ends a line.  The first line begins at zero in every text, so the map keeps
the beginnings of the later lines only and is never empty.

`lineNumber` goes from a position to its line and `offsetOf` from a line and a
column to a position.  Columns are unbounded numbers here, so of the sums that
`offsetOf` forms only those below 2 ^ 64 are the program's.  A line and a column
that were taken from a text lead to a position in it.
-/

namespace ProgramGraph

/-- The beginnings of the lines after the first, in ascending order. -/
structure LineMap where
  laterStarts : List Nat := []
  deriving DecidableEq, Repr, Inhabited

namespace LineMap

/-- The positions just after each line feed of `text`, whose first character
stands at `position`. -/
def startsFrom (position : Nat) : List Char → List Nat
  | [] => []
  | c :: text =>
      if c = '\n' then (position + 1) :: startsFrom (position + 1) text
      else startsFrom (position + 1) text

/-- The line map of a list of characters. -/
def ofChars (text : List Char) : LineMap where
  laterStarts := startsFrom 0 text

/-- The line map of a text. -/
def ofText (text : String) : LineMap :=
  ofChars text.toList

/-- The beginnings of all lines. -/
def starts (lines : LineMap) : List Nat :=
  0 :: lines.laterStarts

/-- How many lines the text has. -/
def lineCount (lines : LineMap) : Nat :=
  lines.laterStarts.length + 1

/-- The line that holds a position; a position past the end belongs to the last
line. -/
def lineNumber (lines : LineMap) (position : Nat) : Nat :=
  lines.laterStarts.countP (· ≤ position) + 1

/-- The position of a column of a line.  Line zero is read as the first line
and a line past the end as the last one. -/
def offsetOf (lines : LineMap) (line column : Nat) : Nat :=
  lines.starts.getD (min (line - 1) lines.laterStarts.length) 0 + column

/-- The line and the column of a position. -/
def locate (lines : LineMap) (position : Nat) : Nat × Nat :=
  let line := lines.lineNumber position
  (line, position - lines.offsetOf line 0)

@[simp]
theorem startsFrom_nil (position : Nat) : startsFrom position [] = [] :=
  rfl

@[simp]
theorem length_starts (lines : LineMap) : lines.starts.length = lines.lineCount :=
  rfl

theorem lineNumber_pos (lines : LineMap) (position : Nat) :
    0 < lines.lineNumber position :=
  Nat.succ_pos _

theorem lineNumber_le_lineCount (lines : LineMap) (position : Nat) :
    lines.lineNumber position ≤ lines.lineCount :=
  Nat.succ_le_succ List.countP_le_length

end LineMap

end ProgramGraph
