import ProgramGraph.Json.Scan

/-!
# Passing over JSON values

The value of an unknown field is passed over, however deeply it is nested.  Its
brackets have to match and its strings and numbers have to be well written, and
that is all that is asked of it.
-/

namespace ProgramGraph.Json

/-- A list or an object that is not yet closed. -/
inductive Frame where
  | list
  | object
  deriving DecidableEq, Repr

namespace Frame

/-- The byte that closes a frame. -/
def closing : Frame → UInt8
  | list => byte ']'
  | object => byte '\x7d'

/-- The fault of a frame that neither goes on nor ends. -/
def endFault : Frame → Fault
  | list => .expectedListEnd
  | object => .expectedObjectEnd

/-- The fault of a text that ends within a frame. -/
def ended : Frame → Fault
  | list => .ended .list
  | object => .ended .object

end Frame

namespace Reader

/-- Pass over a value that holds no other one, or over the bracket that opens a list
or an object. -/
def skipStart : Reader (Option Frame) := do
  match ← peek with
  | none => throw (.ended .value)
  | some next =>
      if next == byte 'n' then
        word "null".toList
        return none
      else if next == byte 't' then
        word "true".toList
        return none
      else if next == byte 'f' then
        word "false".toList
        return none
      else if next == byte '-' || isDigit next then
        skipNumber
        return none
      else if next == byte '"' then
        skipString
        return none
      else if next == byte '[' then
        skip
        return some .list
      else if next == byte '\x7b' then
        skip
        return some .object
      else
        throw .expectedValue

/-- Go on within the innermost frame, `comma` telling whether a comma or an end is
due: pass over the comma, or close the frame and go on within the next one.  The
answer is the frames that are still open, if there are any. -/
def skipEnds (comma : Bool) (frame : Frame) (outer : List Frame) :
    Reader (Option (Frame × List Frame)) := do
  match ← peek with
  | none => throw frame.ended
  | some next =>
      if comma && next == byte ',' then
        skip
        return some (frame, outer)
      else if next == frame.closing then
        skip
        match outer with
        | [] => return none
        | frame :: outer => skipEnds true frame outer
      else if comma then
        throw frame.endFault
      else
        return some (frame, outer)
termination_by outer.length

/-- Pass over a key and its colon. -/
def skipKey : Reader Unit := do
  match ← peek with
  | none => throw (.ended .object)
  | some next => if next == byte '"' then skipString else throw .keyIsNoString
  match ← peek with
  | none => throw (.ended .object)
  | some next => if next == byte ':' then skip else throw .expectedColon

/-- Pass over a value within open frames and over what follows, up to the end of the
outermost frame; at most `bound` values are passed over. -/
def skipWithin : Nat → List Frame → Reader Unit
  | 0, _ => throw (.ended .value)
  | bound + 1, frames => do
      let opened ← skipStart
      let ahead ← match opened, frames with
        | some frame, outer => skipEnds false frame outer
        | none, frame :: outer => skipEnds true frame outer
        | none, [] => pure none
      match ahead with
      | none => return ()
      | some (frame, outer) =>
          if frame = .object then skipKey
          skipWithin bound (frame :: outer)

/-- Pass over a value.  Each value within it takes a byte, which bounds their
number. -/
def skipValue : Reader Unit := do
  skipWithin ((← get).length + 1) []

end Reader

end ProgramGraph.Json
