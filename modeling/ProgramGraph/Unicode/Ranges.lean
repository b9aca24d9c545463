/-!
# Ranges of characters

A property of characters is given by the ranges of code points that have it, in
ascending order and with both ends included.
-/

namespace ProgramGraph.Unicode

/-- Whether a code point lies in one of the ranges. -/
def inRanges (ranges : List (Nat × Nat)) (point : Nat) : Bool :=
  ranges.any fun range => range.1 ≤ point && point ≤ range.2

end ProgramGraph.Unicode
