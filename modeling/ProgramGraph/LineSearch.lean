import ProgramGraph.LineMap

/-!
# Lines found by halving

The lines of a text begin at ascending positions, so the line of a position can be found
without a look at every line: the stretch of lines that come into question is cut in half
until one begins just there or none is left.  A search that hits tells the place of the
position among the beginnings, counted from zero.  One that misses tells how many beginnings
are before the position.  A line is counted from one, so both lead to its number.
-/

namespace ProgramGraph

/-- How a search for a number among ascending numbers ends. -/
inductive Landing where
  /-- The number stands at this place. -/
  | hit (place : Nat)
  /-- The number does not occur, and would have to be put in at this place. -/
  | miss (place : Nat)
  deriving DecidableEq, Repr

/-- Search ascending numbers from one place up to another, which is left out. -/
def bisect (numbers : List Nat) (wanted first last : Nat) : Landing :=
  if first < last then
    let middle := first + (last - first) / 2
    let number := numbers.getD middle 0
    if number = wanted then .hit middle
    else if number < wanted then bisect numbers wanted (middle + 1) last
    else bisect numbers wanted first middle
  else .miss first
termination_by last - first

/-- The line that holds a position, by where a search for it among the beginnings of lines
ends. -/
def Landing.line : Landing → Nat
  | hit place => place + 1
  | miss place => place

namespace LineMap

/-- Search the beginnings of all lines for a position. -/
def search (lines : LineMap) (position : Nat) : Landing :=
  bisect lines.starts position 0 lines.starts.length

end LineMap

end ProgramGraph
