import ProgramGraph.LineMap
import ProgramGraph.Source.Scan

/-!
# The text of a source file

A source file is read twice, once for its syntax and once for its lexemes.  Both
readings pass over a byte order mark.  The reading for syntax also passes over the
first line if it names an interpreter, and over a second byte order mark.

Positions in a graph are those in the file after its byte order mark.  A position
that was found in the syntax is carried over by its line and column.
-/

namespace ProgramGraph

open Source

/-- A source file with the part of it that is read for syntax. -/
structure SourceText where
  /-- The characters of the file after its byte order mark. -/
  chars : List Char
  /-- The characters that are read for syntax. -/
  syntaxChars : List Char
  /-- The lines of the file. -/
  lines : LineMap := .ofChars chars
  /-- The lines of the part that is read for syntax. -/
  syntaxLines : LineMap := .ofChars syntaxChars
  deriving Repr, Inhabited

namespace SourceText

/-- A text without the byte order mark at its front. -/
def dropByteOrderMark : List Char → List Char
  | [] => []
  | c :: text => if c == byteOrderMark then text else c :: text

/-- A text after at most `bound` stretches of blanks and plain comments at its
front. -/
def afterBlanks : Nat → List Char → List Char
  | 0, text => text
  | bound + 1, text =>
      match Chunk.next? text with
      | some (.blank length) => afterBlanks bound (text.drop length)
      | _ => text

/-- Whether the first line of a text names an interpreter: it begins with `#!`, and
what follows, blanks and comments left out, is no attribute. -/
def namesInterpreter : List Char → Bool
  | '#' :: '!' :: text => (afterBlanks text.length text).head? != some '['
  | _ => false

/-- A text from the end of its first line on, if that line names an
interpreter. -/
def dropInterpreter (text : List Char) : List Char :=
  if namesInterpreter text then text.dropWhile (· != '\n') else text

/-- The file that holds a text. -/
def ofString (source : String) : SourceText :=
  let chars := dropByteOrderMark source.toList
  { chars, syntaxChars := dropInterpreter (dropByteOrderMark chars) }

/-- The position in the file at the line and column that a position has in the
syntax. -/
def carry (source : SourceText) (position : Nat) : Nat :=
  let (line, column) := source.syntaxLines.locate position
  source.lines.offsetOf line column

/-- The stretch of the file that has the lines and columns of a stretch of the
syntax. -/
def carrySpan (source : SourceText) (span : Span) : Span where
  first := source.carry span.first
  last := source.carry span.last

/-- The characters of a stretch of the file; what lies past its end is left out. -/
def slice (source : SourceText) (span : Span) : List Char :=
  (source.chars.take span.last).drop span.first

end SourceText

end ProgramGraph
