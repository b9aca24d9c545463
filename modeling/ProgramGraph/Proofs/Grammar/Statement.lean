import ProgramGraph.Grammar.Statement
import ProgramGraph.Proofs.Grammar.Expression

/-!
# What statements show

A statement shows what it takes.  One that turns out to be an item is read again from its
beginning, and what was read of it before is not used.
-/

namespace ProgramGraph.Grammar

open Source Outline

variable {nested : Nested}

theorem quiet_leadingMacro : Quiet leadingMacro := by
  intro before value after done
  rcases run_bind_eq_ok_iff.mp done with ⟨found, middle, looked, rest⟩
  cases quiet_lookAhead _ _ _ _ looked
  cases rest
  rfl

/-! ## The statements -/

theorem reads_letBinding (start : Nat) (attributes : List Outline) (faithful : Faithful nested) :
    Reads ([·]) [attributes] (letBinding nested start attributes) := by
  intro origin taken blocks
  unfold letBinding
  apply Continues.skip (idle_word _)
  intro _ _
  apply Continues.skip idle_here
  intro _ place
  apply Continues.read
  · intro origin taken blocks
    exact .last (reads_typedPattern [] place faithful) (.empty _)
  intro _ pattern
  apply Continues.skip (idle_optionalSymbol _)
  intro _ given
  extract_lets rest
  have reads : ∀ taken value,
      Continues origin taken (value :: [pattern] :: attributes :: blocks) (Gives ([·]) blocks)
        (rest value) := by
    intro taken value
    apply Continues.skip (idle_symbol _)
    intro _ _
    apply Continues.skip (.of_quiet (quiet_spanFrom _))
    intro _ span
    apply Continues.give
    constructor <;> simp <;> grind
  split
  · apply Continues.read (faithful.expression true)
    intro _ value
    apply Continues.skip (.of_quiet quiet_get)
    intro _ cursor
    apply Continues.skip (idle_whereAllowed _ (idle_optionalWord _))
    intro _ otherwise
    split
    · apply Continues.read (reads_blockExpression faithful)
      intro _ branch
      apply Continues.pure_bind
      exact (reads _ [value, branch]).rearrange (.append [value] [branch] _)
    · exact .pure_bind (reads _ [value])
  · apply Continues.read .none
    exact fun _ value => reads _ value

theorem reads_macroStatement (start : Nat) (attributes : List Outline) :
    Reads ([·]) [attributes] (macroStatement start attributes) := by
  intro origin taken blocks
  unfold macroStatement
  apply Continues.read reads_plainPath
  intro _ names
  apply Continues.skip idle_macroArguments
  intro _ _
  apply Continues.skip (idle_optionalSymbol _)
  intro _ _
  apply Continues.skip (.of_quiet (quiet_spanFrom _))
  intro _ span
  apply Continues.give
  constructor <;> simp <;> grind

theorem reads_expressionStatement (start : Nat) (attributes : List Outline)
    (faithful : Faithful nested) :
    Reads ([·]) [attributes] (expressionStatement nested start attributes) := by
  intro origin taken blocks
  unfold expressionStatement
  apply Continues.read faithful.early
  intro _ first
  extract_lets whole
  have attached : Rearranges ([first] :: attributes :: blocks) ([whole] :: blocks) := by
    constructor <;> simp [whole] <;> grind
  apply Continues.rearrange _ attached
  apply Continues.skip (idle_optionalSymbol _)
  intro _ closed
  apply Continues.skip (.of_quiet (quiet_spanFrom _))
  intro _ span
  have enclosed : Rearranges ([whole] :: blocks)
      ([.element (.statement .expression) span [] [whole]] :: blocks) := by
    constructor <;> simp
  split
  · split
    · apply Continues.give
      constructor <;> simp <;> grind [tallyAll_attributes_add_children_le]
    · exact .give enclosed
  · exact .give enclosed

theorem reads_itemStatement (faithful : Faithful nested) :
    Reads ([·]) [] (itemStatement nested) := by
  apply Reads.after idle_here
  intro start origin taken blocks
  apply Continues.read faithful.item
  intro _ item
  exact .last (.element rfl start _) (.refl _)

/-- A statement is an item, or something that is read behind the attributes.  What is read before
it is known that it is an item is not used. -/
theorem exists_run_of_statement {before after : Cursor} {answer : Outline × Bool}
    (done : (statement nested).run before = .ok (answer, after)) :
    (itemStatement nested).run before = .ok (answer.1, after) ∨
      ∃ attributes middle, (outerAttributes nested).run before = .ok (attributes, middle) ∧
        ∃ reader ∈ [macroStatement before.position attributes,
            letBinding nested before.position attributes,
            expressionStatement nested before.position attributes],
          reader.run middle = .ok (answer.1, after) := by
  rcases run_bind_eq_ok_iff.mp done with ⟨_, _, got, rest⟩
  cases got
  rcases run_bind_eq_ok_iff.mp rest with ⟨start, _, started, rest⟩
  cases started
  rcases run_bind_eq_ok_iff.mp rest with ⟨attributes, middle, ran, rest⟩
  rcases run_bind_eq_ok_iff.mp rest with ⟨leading, _, looked, rest⟩
  cases quiet_leadingMacro _ _ _ looked
  have ends : ∀ (goesOn : Outline → Bool) {reader : Reader Outline},
      (do let outline ← reader; return (outline, goesOn outline)).run middle =
          .ok (answer, after) → reader.run middle = .ok (answer.1, after) := by
    intro goesOn reader continued
    rcases run_bind_eq_ok_iff.mp continued with ⟨outline, _, read, same⟩
    cases same
    exact read
  dsimp only at rest
  split at rest
  · exact .inr ⟨attributes, middle, ran, _, .head _, ends (fun _ => true) rest⟩
  rcases run_bind_eq_ok_iff.mp rest with ⟨_, _, saw, rest⟩
  cases saw
  split at rest
  · exact .inr ⟨attributes, middle, ran, _, .tail _ (.head _), ends (fun _ => true) rest⟩
  split at rest
  all_goals
    rcases run_bind_eq_ok_iff.mp rest with ⟨isItem, _, told, rest⟩
    cases told
    split at rest
    · rcases run_bind_eq_ok_iff.mp rest with ⟨_, _, restarts, again⟩
      cases restarts
      rcases run_bind_eq_ok_iff.mp again with ⟨item, _, read, same⟩
      cases same
      exact .inl read
    · exact .inr ⟨attributes, middle, ran, _, .tail _ (.tail _ (.head _)), ends _ rest⟩

theorem reads_statement (faithful : Faithful nested) :
    Reads (fun answer => [answer.1]) [] (statement nested) := by
  refine Reads.of_yields ?_ fun _ _ held => held
  intro before answer after done
  rcases exists_run_of_statement done with
    item | ⟨attributes, middle, ran, reader, isOne, continued⟩
  · exact (reads_itemStatement faithful).yields before answer.1 after item
  have reads : Reads ([·]) [attributes] reader := by
    simp only [List.mem_cons, List.not_mem_nil, or_false] at isOne
    rcases isOne with rfl | rfl | rfl
    · exact reads_macroStatement _ _
    · exact reads_letBinding _ _ faithful
    · exact reads_expressionStatement _ _ faithful
  rcases (reads_outerAttributes faithful).yields before attributes middle ran with
    ⟨taken, takes, held⟩
  rcases reads before taken [] middle takes held answer.1 after continued with ⟨more, ended⟩
  exact ⟨taken ++ more, ended⟩

theorem reads_emptyStatement :
    Reads (fun answer => answer.elim [] ([·])) [] emptyStatement := by
  unfold emptyStatement
  apply Reads.after idle_here
  intro start
  apply Reads.test (idle_optionalSymbol _)
  · extract_lets nothing
    intro origin taken blocks
    apply Continues.read
    · intro origin taken blocks
      apply Continues.last (.element rfl start [nothing])
      constructor <;> simp [nothing]
    intro _ outline
    exact .give (.refl _)
  · exact fun _ _ blocks => .give (.empty blocks)

theorem reads_statements (faithful : Faithful nested) : Reads id [] (statements nested) := by
  intro origin taken blocks
  unfold statements
  apply Continues.iterate fun state => state.1.reverse
  · rfl
  · rintro ⟨found, done⟩ origin taken blocks
    dsimp only
    split
    · exact .give (.refl _)
    apply Continues.read reads_emptyStatement
    intro _ empty
    cases empty with
    | some outline =>
        apply Continues.give
        constructor <;> simp <;> grind
    | none =>
        apply Continues.skip (.of_quiet quiet_atEnd)
        intro _ ended
        split
        · exact .give (.forget _ _)
        apply Continues.read (reads_statement faithful)
        rintro _ ⟨outline, goesOn⟩
        apply Continues.skip (.of_quiet quiet_atEnd)
        intro _ ended
        have added : Rearranges ([outline] :: [] :: found.reverse :: blocks)
            ((outline :: found).reverse :: blocks) := by
          constructor <;> simp <;> grind
        split
        · exact .give added
        split
        · exact .give added
        · exact .fail
  · rintro _ ⟨found, _⟩
    exact .give (.refl _)

end ProgramGraph.Grammar
