import ProgramGraph.Proofs.Grammar.File
import ProgramGraph.Proofs.Grammar.Nesting.Item

/-!
# What files enclose

The readers of nested syntax are orderly at every depth, and so what a file shows fits into its
trees.
-/

namespace ProgramGraph.Grammar

open Source Outline

/-- A level of nesting is orderly if the level below is. -/
theorem orderly_next {depth : Nat} (orderly : Orderly (nestedTo depth)) :
    Orderly (nestedTo (depth + 1)) where
  toFaithful := faithful_next orderly.toFaithful
  yields goal := by
    cases goal with
    | type plus => exact carries_type plus orderly
    | bound capture constant => exact nests_bound capture constant orderly
    | pattern => exact carries_pattern orderly
    | unary structs => exact carries_unary structs orderly
    | expression structs => exact carries_expression structs orderly
    | early => exact carries_early orderly
    | conditional => exact carries_conditional orderly
    | operators left structs base => exact extends_operators left structs base orderly
    | operand structs base => exact carries_operand structs base orderly
    | statements => exact nests_statements orderly
    | item => exact carries_item orderly
    | fields => exact nests_namedFields orderly
    | useTree root => exact nests_useTree root orderly

theorem orderly_nestedTo (depth : Nat) : Orderly (nestedTo depth) := by
  induction depth with
  | zero =>
      exact {
        toFaithful := faithful_nestedTo 0
        yields := fun _ _ _ _ done => by cases done }
  | succ depth ih => exact orderly_next ih

theorem nests_fileParts {nested : Nested} (orderly : Orderly nested) :
    Nests id (fileParts nested) := by
  apply Yields.of_start
  intro origin
  apply Continues.pass (nests_innerAttributes orderly)
  intro taken attributes fit
  apply Continues.adding fit (nests_everything collects_id (nests_of_carries orderly.item))
  exact fun taken items fit => .pure fun _ => fit

/-- The trees of a file enclose its outline. -/
theorem encloses_of_outline {trees : List TokenTree} {outlines : List Outline}
    (done : outline trees = .ok outlines) : Encloses trees outlines := by
  rcases exists_run_of_outline done with ⟨depth, cursor, ran⟩
  rcases nests_fileParts (orderly_nestedTo depth) _ _ _ ran with ⟨taken, takes, fit⟩
  rw [show trees = taken ++ cursor.rest from takes.rest]
  exact fit.append_right

/-- The outline of a text fits into it. -/
theorem allFit_of_outline {text : List Char} {trees : List TokenTree} {outlines : List Outline}
    (found : TokenTree.ofText text = .ok trees) (done : outline trees = .ok outlines) :
    AllFit outlines 0 text.length := by
  have encloses := encloses_of_outline done
  by_cases none : trees = []
  · rw [none] at encloses
    rw [eq_nil_of_encloses_nil encloses]
    trivial
  rcases (TokenTree.exists_ends_of_run (TokenTree.allBracketed_of_ofText found) none).2 with
    ⟨lexeme, member, ends⟩
  rw [TokenTree.flatten_of_ofText found] at member
  apply (encloses (TokenTree.allInPlace_of_ofText found)).mono (Nat.zero_le _)
  rw [← ends]
  exact last_le_of_mem_lexemes member

end ProgramGraph.Grammar
