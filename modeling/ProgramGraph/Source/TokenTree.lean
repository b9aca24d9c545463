import ProgramGraph.Source.Scan

/-!
# Token trees

The brackets of a sequence of lexemes group it into trees.  `flatten` writes the
brackets out again and `group` finds the trees of a sequence of lexemes; a group
without brackets is possible in a tree and leaves no trace when it is written
out.
-/

namespace ProgramGraph.Source

/-- A leaf, or a sequence of trees in brackets.  A group without brackets keeps
its trees together and shows nothing. -/
inductive TokenTree where
  | leaf (leaf : Leaf)
  | group (bracket : Option Bracket) (opening closing : Span) (trees : List TokenTree)
  deriving Repr, Inhabited

namespace TokenTree

/-- The lexemes of one tree. -/
def lexemes : TokenTree → List Lexeme
  | .leaf unit => [.leaf unit]
  | .group none _ _ trees => lexemesOfAll trees
  | .group (some bracket) opening closing trees =>
      .opening bracket opening :: (lexemesOfAll trees ++ [.closing bracket closing])
where
  /-- The lexemes of a sequence of trees. -/
  lexemesOfAll : List TokenTree → List Lexeme
    | [] => []
    | tree :: trees => lexemes tree ++ lexemesOfAll trees

/-- Write the brackets of a sequence of trees out. -/
def flatten (trees : List TokenTree) : List Lexeme :=
  lexemes.lexemesOfAll trees

/-- The position of the first character of a tree. -/
def first : TokenTree → Nat
  | .leaf unit => unit.span.first
  | .group _ opening _ _ => opening.first

/-- The position after the last character of a tree. -/
def last : TokenTree → Nat
  | .leaf unit => unit.span.last
  | .group _ _ closing _ => closing.last

/-- A group that is still open: its bracket, and the trees before it, last one
first. -/
structure Frame where
  bracket : Bracket
  opening : Span
  before : List TokenTree

/-- Why lexemes form no trees, with the position of the bracket to blame. -/
inductive Fault where
  /-- This closing bracket closes nothing, or another pair. -/
  | mismatched (position : Nat)
  /-- This opening bracket is the innermost one that is never closed. -/
  | unclosed (position : Nat)
  deriving DecidableEq, Repr

/-- Group lexemes below the open groups `frames`; `before` holds the trees of the
innermost group so far, last one first. -/
def groupFrom (frames : List Frame) (before : List TokenTree) :
    List Lexeme → Except Fault (List TokenTree)
  | [] =>
      match frames with
      | [] => .ok before.reverse
      | frame :: _ => .error (.unclosed frame.opening.first)
  | .leaf unit :: lexemes => groupFrom frames (TokenTree.leaf unit :: before) lexemes
  | .opening bracket span :: lexemes => groupFrom (⟨bracket, span, before⟩ :: frames) [] lexemes
  | .closing bracket span :: lexemes =>
      match frames with
      | [] => .error (.mismatched span.first)
      | frame :: frames =>
          if frame.bracket = bracket then
            groupFrom frames
              (TokenTree.group (some bracket) frame.opening span before.reverse :: frame.before)
              lexemes
          else
            .error (.mismatched span.first)

/-- The trees of a sequence of lexemes. -/
def group? (lexemes : List Lexeme) : Except Fault (List TokenTree) :=
  groupFrom [] [] lexemes

/-- The trees of a text, or the position of the first thing wrong with it.  A
bracket that is never closed is found only at the end, after every character
that fits nowhere. -/
def ofText (text : List Char) : Except Nat (List TokenTree) :=
  let (lexemes, fault) := scan text
  match group? lexemes, fault with
  | .error (.mismatched position), _ => .error position
  | _, some position => .error position
  | .error (.unclosed position), none => .error position
  | .ok trees, none => .ok trees

end TokenTree

end ProgramGraph.Source
