import ProgramGraph.Proofs.Source.TokenTree

/-!
# Trees written out and grouped again

Written out, trees show each of their leaves once and in order, between brackets that are nested.
Grouped again, they come back, except that a group without brackets leaves what it holds in its
place: it shows nothing by which it could be found.  So trees are told by their lexemes as far as
their groups have brackets.

All of this is by one induction on trees, in which a sequence of trees begins with a leaf or with
a group of other trees.
-/

namespace ProgramGraph.Source

/-! ## Nested delimiters -/

/-- A bracket that opens or closes. -/
inductive Delimiter where
  | opening (bracket : Bracket)
  | closing (bracket : Bracket)
  deriving DecidableEq, Repr

/-- Delimiters are nested if they are pairs of one kind each, one pair behind the other, with
nested delimiters in every pair. -/
inductive Nested : List Delimiter → Prop
  | nil : Nested []
  | pair (bracket : Bracket) {inner behind : List Delimiter} : Nested inner → Nested behind →
      Nested (.opening bracket :: (inner ++ .closing bracket :: behind))

theorem Nested.append {front back : List Delimiter} (frontNested : Nested front)
    (backNested : Nested back) : Nested (front ++ back) := by
  induction frontNested with
  | nil => exact backNested
  | pair bracket inner behind _ ih =>
      rw [List.cons_append, List.append_assoc, List.cons_append]
      exact .pair bracket inner ih

namespace Lexeme

/-- The delimiter that a lexeme is, unless it is a leaf. -/
def delimiter? : Lexeme → Option Delimiter
  | .leaf _ => none
  | .opening bracket _ => some (.opening bracket)
  | .closing bracket _ => some (.closing bracket)

end Lexeme

namespace TokenTree

/-! ## Leaves and spliced groups -/

mutual

/-- The leaves of a tree, in order. -/
def leaves : TokenTree → List Leaf
  | .leaf unit => [unit]
  | .group _ _ _ trees => leavesOfAll trees

/-- The leaves of trees, in order. -/
def leavesOfAll : List TokenTree → List Leaf
  | [] => []
  | tree :: trees => tree.leaves ++ leavesOfAll trees

end

mutual

/-- A tree in which each group without brackets, the tree itself included, is replaced by what it
holds. -/
def splice : TokenTree → List TokenTree
  | .leaf unit => [.leaf unit]
  | .group none _ _ trees => spliceAll trees
  | .group (some bracket) opening closing trees =>
      [.group (some bracket) opening closing (spliceAll trees)]

/-- Trees in which each group without brackets is replaced by what it holds. -/
def spliceAll : List TokenTree → List TokenTree
  | [] => []
  | tree :: trees => tree.splice ++ spliceAll trees

end

end TokenTree

end ProgramGraph.Source
