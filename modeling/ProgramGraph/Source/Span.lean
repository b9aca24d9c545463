/-!
# Stretches of text

A span is the stretch of a text from one position up to, not including, another.
-/

namespace ProgramGraph.Source

/-- A stretch of text, with its end not included. -/
structure Span where
  first : Nat
  last : Nat
  deriving DecidableEq, Repr, Inhabited

namespace Span

/-- The span of the first character of a span. -/
def head (span : Span) : Span where
  first := span.first
  last := min (span.first + 1) span.last

/-- The span of the last character of a span. -/
def tail (span : Span) : Span where
  first := max (span.last - 1) span.first
  last := span.last

/-- Whether a span lies within another. -/
def within (span outer : Span) : Bool :=
  outer.first ≤ span.first && span.last ≤ outer.last

end Span

end ProgramGraph.Source
