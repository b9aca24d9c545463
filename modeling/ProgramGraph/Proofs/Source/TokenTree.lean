import ProgramGraph.Source.TokenTree

/-!
# Brackets

Lexemes are grouped with a stack of the brackets that are still open.  At every point of the
way the stack, the trees so far and the lexemes to come write out the same sequence, so the
trees of a text, written out, are the lexemes of the text.  All groups in them have brackets.
-/

namespace ProgramGraph.Source.TokenTree

variable {frames : List Frame} {before trees : List TokenTree} {lexemes : List Lexeme}

theorem flatten_nil : flatten [] = [] :=
  rfl

theorem flatten_cons (tree : TokenTree) (trees : List TokenTree) :
    flatten (tree :: trees) = tree.lexemes ++ flatten trees :=
  rfl

theorem flatten_append (front back : List TokenTree) :
    flatten (front ++ back) = flatten front ++ flatten back := by
  induction front with
  | nil => rfl
  | cons tree trees ih => rw [List.cons_append, flatten_cons, ih, flatten_cons, List.append_assoc]

theorem flatten_reverse_cons (tree : TokenTree) (before : List TokenTree) :
    flatten (tree :: before).reverse = flatten before.reverse ++ tree.lexemes := by
  rw [List.reverse_cons, flatten_append, flatten_cons, flatten_nil, List.append_nil]

/-- What was read up to the innermost bracket that is still open. -/
def written : List Frame → List Lexeme
  | [] => []
  | frame :: frames =>
      written frames ++ flatten frame.before.reverse ++ [.opening frame.bracket frame.opening]

/-- What was read, what is grouped and what is to come stay together. -/
theorem flatten_of_groupFrom (grouped : groupFrom frames before lexemes = .ok trees) :
    flatten trees = written frames ++ flatten before.reverse ++ lexemes := by
  induction lexemes generalizing frames before with
  | nil =>
      cases frames with
      | nil =>
          cases grouped
          exact (List.append_nil _).symm
      | cons frame frames => cases grouped
  | cons lexeme lexemes ih =>
      cases lexeme with
      | leaf unit =>
          rw [ih grouped, flatten_reverse_cons]
          simp [TokenTree.lexemes]
      | opening bracket span =>
          rw [ih grouped]
          simp [written, flatten_nil]
      | closing bracket span =>
          cases frames with
          | nil => cases grouped
          | cons frame frames =>
              rw [groupFrom] at grouped
              split at grouped
              · next same =>
                rw [ih grouped, flatten_reverse_cons]
                simp [written, TokenTree.lexemes, flatten, same]
              · cases grouped

/-- The trees of lexemes, written out, are the lexemes. -/
theorem flatten_of_group? (grouped : group? lexemes = .ok trees) : flatten trees = lexemes :=
  flatten_of_groupFrom grouped

/-- A text that has trees is scanned to its end, and the trees are those of its lexemes. -/
theorem scan_of_ofText {text : List Char} (found : ofText text = .ok trees) :
    scan text = (flatten trees, none) := by
  rw [ofText] at found
  split at found
  next lexemes fault scanned =>
    rw [scanned]
    split at found
    · cases found
    · cases found
    · cases found
    · next grouped =>
      cases found
      rw [flatten_of_group? grouped]

/-! ## Groups with brackets -/

mutual

/-- All groups in a tree have brackets. -/
def Bracketed : TokenTree → Prop
  | .leaf _ => True
  | .group bracket _ _ trees => bracket.isSome ∧ AllBracketed trees

/-- All groups in trees have brackets. -/
def AllBracketed : List TokenTree → Prop
  | [] => True
  | tree :: trees => tree.Bracketed ∧ AllBracketed trees

end

theorem allBracketed_append {front back : List TokenTree} :
    AllBracketed (front ++ back) ↔ AllBracketed front ∧ AllBracketed back := by
  induction front with
  | nil => exact (and_iff_right trivial).symm
  | cons tree front ih => rw [List.cons_append, AllBracketed, AllBracketed, ih, and_assoc]

theorem allBracketed_reverse : AllBracketed trees.reverse ↔ AllBracketed trees := by
  induction trees with
  | nil => exact Iff.rfl
  | cons tree trees ih =>
      rw [List.reverse_cons, allBracketed_append, ih, AllBracketed, AllBracketed, AllBracketed,
        and_comm, and_true]

/-- Lexemes are put into groups with brackets. -/
theorem allBracketed_of_groupFrom (grouped : groupFrom frames before lexemes = .ok trees)
    (beforeBracketed : AllBracketed before)
    (framesBracketed : ∀ frame ∈ frames, AllBracketed frame.before) : AllBracketed trees := by
  induction lexemes generalizing frames before with
  | nil =>
      cases frames with
      | nil =>
          cases grouped
          exact allBracketed_reverse.mpr beforeBracketed
      | cons frame frames => cases grouped
  | cons lexeme lexemes ih =>
      cases lexeme with
      | leaf unit => exact ih grouped ⟨trivial, beforeBracketed⟩ framesBracketed
      | opening bracket span =>
          exact ih grouped trivial (List.forall_mem_cons.mpr ⟨beforeBracketed, framesBracketed⟩)
      | closing bracket span =>
          cases frames with
          | nil => cases grouped
          | cons frame frames =>
              rw [groupFrom] at grouped
              split at grouped
              · rcases List.forall_mem_cons.mp framesBracketed with ⟨outer, others⟩
                have inner := allBracketed_reverse.mpr beforeBracketed
                exact ih grouped ⟨⟨rfl, inner⟩, outer⟩ others
              · cases grouped

end ProgramGraph.Source.TokenTree
