import ProgramGraph.Grammar.File
import ProgramGraph.Proofs.Grammar.Item

/-!
# What outlines show

The readers of nested syntax show what they take at every depth, and so the trees of a text hold
its outline.
-/

namespace ProgramGraph.Grammar

open Source Outline

/-- A level of nesting shows what it takes if the level below does. -/
theorem faithful_next {depth : Nat} (faithful : Faithful (nestedTo depth)) :
    Faithful (nestedTo (depth + 1)) where
  reads goal := by
    cases goal with
    | type plus => exact (moves_type plus faithful).reads
    | bound capture constant => exact (moves_bound capture constant faithful).reads
    | pattern => exact reads_pattern faithful
    | unary structs => exact reads_unary structs faithful
    | expression structs => exact reads_expression structs faithful
    | early => exact reads_early faithful
    | conditional => exact reads_conditional faithful
    | operators left structs base => exact reads_operators left structs base faithful
    | operand structs base => exact reads_operand structs base faithful
    | statements => exact reads_statements faithful
    | item => exact reads_item faithful
    | fields => exact reads_namedFields faithful
    | useTree root => exact reads_useTree root faithful
  covers plus := covering_type plus faithful
  moves capture constant := moves_bound capture constant faithful

theorem faithful_nestedTo (depth : Nat) : Faithful (nestedTo depth) := by
  induction depth with
  | zero =>
      exact {
        reads := fun _ _ _ _ => .fail
        covers := fun _ _ _ _ done => by cases done
        moves := fun _ _ _ _ _ done => by cases done }
  | succ depth ih => exact faithful_next ih

theorem reads_fileParts {nested : Nested} (faithful : Faithful nested) :
    Reads id [] (fileParts nested) := by
  intro origin taken blocks
  apply Continues.read (reads_innerAttributes faithful)
  intro _ attributes
  apply Continues.read (reads_everything collects_id faithful.item)
  intro _ items
  exact .give (.append _ _ _)

/-- An outline is read from the trees of its file at some depth. -/
theorem exists_run_of_outline {trees : List TokenTree} {outlines : List Outline}
    (done : outline trees = .ok outlines) :
    ∃ depth cursor, (fileParts (nestedTo depth)).run
      { rest := trees, limit := 0, last := 0, curly := false, leftover := none } =
        .ok (outlines, cursor) := by
  unfold outline at done
  dsimp only at done
  cases ran : (fileParts (nestedTo (8 * (TokenTree.flatten trees).length + 64))).run
      { rest := trees, limit := 0, last := 0, curly := false, leftover := none } with
  | error position =>
      rw [ran] at done
      cases done
  | ok answer =>
      rcases answer with ⟨parts, rest, limit, last, curly, leftover⟩
      rw [ran] at done
      cases leftover with
      | none =>
          cases done
          exact ⟨_, _, ran⟩
      | some position => cases done

/-- The trees of a file hold its outline. -/
theorem held_of_outline {trees : List TokenTree} {outlines : List Outline}
    (done : outline trees = .ok outlines) : Held trees [outlines] := by
  rcases exists_run_of_outline done with ⟨depth, cursor, ran⟩
  rcases (reads_fileParts (faithful_nestedTo depth)).yields _ _ _ ran with ⟨taken, takes, held⟩
  rw [show trees = taken ++ cursor.rest from takes.rest]
  exact (held.add (.bare cursor.rest)).rearrange (.forget [] _)

end ProgramGraph.Grammar
