import ProgramGraph.Grammar.Item

/-!
# Files

A file is a sequence of items with attributes at its beginning.  Here the readers
of nested syntax are tied together: each level of nesting calls the level below,
and a text of `n` lexemes nests no deeper than a small multiple of `n`.
-/

namespace ProgramGraph.Grammar

open Source

/-- The readers of nested syntax down to a given depth. -/
def nestedTo : Nat → Nested
  | 0, _ => fail
  | depth + 1, goal =>
      let nested := nestedTo depth
      match goal with
      | .type plus => type nested plus
      | .bound capture constant => bound nested capture constant
      | .pattern => pattern nested
      | .unary structs => unary nested structs
      | .expression structs => expression nested structs
      | .early => early nested
      | .conditional => conditional nested
      | .operators left structs base => operators nested left structs base
      | .operand structs base => operand nested structs base
      | .statements => statements nested
      | .item => item nested
      | .fields => namedFields nested
      | .useTree root => useTree nested root

/-- The attributes and the items of a file. -/
def fileParts (nested : Nested) : Reader (List Outline) := do
  let attributes ← innerAttributes nested
  return attributes ++ (← everything (nested .item))

/-- The outline of a file, or the position of the first tree that does not fit.
Where trees are missing at the end of the file, its beginning is to blame. -/
def outline (trees : List TokenTree) : Except Nat (List Outline) := do
  let depth := 8 * (TokenTree.flatten trees).length + 64
  let start : Cursor := { rest := trees, limit := 0, last := 0, curly := false, leftover := none }
  let (parts, cursor) ← (fileParts (nestedTo depth)).run start
  match cursor.leftover with
  | some position => throw position
  | none => return parts

end ProgramGraph.Grammar
