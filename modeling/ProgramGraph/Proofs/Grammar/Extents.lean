import ProgramGraph.Proofs.Grammar.Runs
import ProgramGraph.Proofs.Source.Shift

/-!
# Where runs begin and end

The groups that lexemes are put into all have brackets.  So a run of trees begins where its first
lexeme begins and ends where its last lexeme ends.
-/

namespace ProgramGraph.Source.TokenTree

variable {trees run : List TokenTree} {tree : TokenTree}

theorem Within.allBracketed (within : Within run trees) (bracketed : AllBracketed trees) :
    AllBracketed run := by
  induction within with
  | here before after => exact (allBracketed_append.mp (allBracketed_append.mp bracketed).2).1
  | inside before after bracket opening closing _ ih =>
      exact ih (allBracketed_append.mp bracketed).2.1.2

/-- The lexemes of a run stand side by side. -/
theorem Within.isInfix (within : Within run trees) (bracketed : AllBracketed trees) :
    flatten run <:+: flatten trees := by
  induction within with
  | here before after =>
      rw [flatten_append, flatten_append, ← List.append_assoc]
      exact List.infix_append _ _ _
  | @inside before after bracket opening closing trees _ ih =>
      have inGroup := (allBracketed_append.mp bracketed).2.1
      have inner : flatten trees <:+: (TokenTree.group bracket opening closing trees).lexemes := by
        rcases Option.isSome_iff_exists.mp inGroup.1 with ⟨kind, rfl⟩
        exact ⟨[.opening kind opening], [.closing kind closing], rfl⟩
      rw [flatten_append, flatten_cons, ← List.append_assoc]
      exact ((ih inGroup.2).trans inner).trans (List.infix_append _ _ _)

/-- A tree begins where its first lexeme does and ends where its last lexeme does. -/
theorem exists_ends (bracketed : tree.Bracketed) :
    (∃ lexeme ∈ tree.lexemes, lexeme.span.first = tree.first) ∧
      ∃ lexeme ∈ tree.lexemes, lexeme.span.last = tree.last := by
  cases tree with
  | leaf unit => exact ⟨⟨_, .head _, rfl⟩, _, .head _, rfl⟩
  | group bracket opening closing trees =>
      rcases Option.isSome_iff_exists.mp bracketed.1 with ⟨kind, rfl⟩
      refine ⟨⟨.opening kind opening, .head _, rfl⟩, .closing kind closing, ?_, rfl⟩
      exact .tail _ (List.mem_append_right _ (.head _))

/-- A run begins where a lexeme of it does and ends where one does. -/
theorem exists_ends_of_run (bracketed : AllBracketed run) (some : run ≠ []) :
    (∃ lexeme ∈ flatten run, lexeme.span.first = (extent run).first) ∧
      ∃ lexeme ∈ flatten run, lexeme.span.last = (extent run).last := by
  constructor
  · cases run with
    | nil => exact absurd rfl some
    | cons tree run =>
        rcases (exists_ends bracketed.1).1 with ⟨lexeme, member, first⟩
        exact ⟨lexeme, List.mem_append_left _ member, first⟩
  · rcases List.eq_nil_or_concat' run with rfl | ⟨run, tree, rfl⟩
    · exact absurd rfl some
    · rcases (exists_ends (allBracketed_append.mp bracketed).2.1).2 with ⟨lexeme, member, last⟩
      refine ⟨lexeme, ?_, ?_⟩
      · rw [flatten_append]
        exact List.mem_append_right _ (List.mem_append_left _ member)
      · rw [last, extent, List.getLast?_concat]
        rfl

end ProgramGraph.Source.TokenTree
