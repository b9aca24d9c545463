import ProgramGraph.Proofs.Grammar.Nesting.Expression
import ProgramGraph.Proofs.Grammar.Statement

/-!
# What statements enclose

A statement is an element of the trees that it takes, and what it holds fits into it.  A semicolon
by itself is the exception: the expression of its statement covers nothing.
-/

namespace ProgramGraph.Grammar

open Source Outline

variable {nested : Nested} {origin : Cursor} {front : List TokenTree} {attributes : List Outline}

/-! ## Bindings and macro calls -/

theorem nests_letBinding (orderly : Orderly nested) (fit : Encloses front attributes) :
    Continues origin front [] (fun all outline => Encloses all [outline])
      (letBinding nested origin.position attributes) := by
  unfold letBinding
  apply Continues.skipping fit (idle_word _)
  intro taken _ fit
  apply Continues.passHere fun inner =>
    carries_typedPattern [] orderly ⟨.inl rfl, encloses_nil.mpr trivial⟩
  intro more pattern carries
  have both : Encloses (taken ++ more) (attributes ++ [pattern]) := by grind
  apply Continues.skipping both (idle_optionalSymbol _)
  intro taken given both
  extract_lets rest
  have closes : ∀ taken value, Encloses taken (attributes ++ [pattern] ++ value) →
      Continues origin taken [] (fun all outline => Encloses all [outline]) (rest value) := by
    intro taken value fit
    apply Continues.skipping fit (idle_symbol _)
    intro all _ fit
    have some : all ≠ [] := by grind
    apply Continues.spanned some
    exact .pure fun _ => (carries_element some rfl (by grind) (by grind)).encloses
  split
  · apply Continues.adding both (orderly.expressions true)
    intro taken value both
    apply Continues.quiet quiet_get
    intro cursor
    apply Continues.skipping both (idle_whereAllowed _ (idle_optionalWord _))
    intro taken otherwise both
    split
    · apply Continues.adding both (nests_of_carries (carries_blockExpression orderly))
      intro taken branch both
      exact .pure_bind (closes taken _ (by grind))
    · exact .pure_bind (closes taken _ (by grind))
  · exact .pure_bind (closes taken [] (by grind))

theorem takesSome_macroArguments : TakesSome macroArguments := by
  apply Yields.of_start
  intro origin
  apply Continues.pass (takesSome_symbol rfl)
  intro _ _ some
  apply Continues.finish (idle_takeWhere _ _)
  exact fun _ _ _ _ => List.append_ne_nil_of_left_ne_nil some _

theorem nests_macroStatement (fit : Encloses front attributes) :
    Continues origin front [] (fun all outline => Encloses all [outline])
      (macroStatement origin.position attributes) := by
  unfold macroStatement
  apply Continues.adding fit nests_plainPath
  intro taken names both
  apply Continues.pass takesSome_macroArguments
  intro arguments _ some
  apply Continues.skip (idle_optionalSymbol _)
  intro more _
  have some : taken ++ arguments ++ more ≠ [] := by grind
  apply Continues.spanned some
  exact .pure fun _ => (carries_element some rfl (by grind) (by grind)).encloses

/-! ## Expressions -/

/-- The children of a macro call fit where it does. -/
theorem Fits.children_of_macroCall {outline : Outline} {curly : Bool} {low high : Nat}
    (fits : outline.Fits low high) (call : outline.expressionForm = .macroCall curly) :
    AllFit outline.children low high := by
  apply fits.children
  intro statement
  cases outline <;> simp_all [Outline.form?, Outline.expressionForm]

theorem nests_expressionStatement (orderly : Orderly nested) (inFront : InFront front attributes) :
    Continues origin front [] (fun all outline => Encloses all [outline])
      (expressionStatement nested origin.position attributes) := by
  apply Continues.begun
  intro begins
  unfold expressionStatement
  apply Continues.pass orderly.early
  intro more first carries
  extract_lets whole
  have wholeCarries : Carries (front ++ more) whole :=
    carries.attachLeft inFront.2 inFront.1 begins
  apply Continues.skip (idle_optionalSymbol _)
  intro further closed
  have allCarries : Carries (front ++ more ++ further) whole := wholeCarries.append_right
  apply Continues.stretched
  intro span first last
  have enclosing : Encloses (front ++ more ++ further)
      [.element (.statement .expression) span [] [whole]] := by
    apply allCarries.enclosing first (last allCarries.ne_nil)
    · exact fun _ _ => trivial
    · exact fun _ fits => ⟨fits, trivial⟩
  split
  · next curly call =>
    split
    · apply Continues.pure
      intro _
      apply allCarries.enclosing first (last allCarries.ne_nil)
      · exact fun _ fits => fits.attributes
      · exact fun _ fits => Fits.children_of_macroCall fits call
    · exact .pure fun _ => enclosing
  · exact .pure fun _ => enclosing

theorem nests_itemStatement (orderly : Orderly nested) : Nests ([·]) (itemStatement nested) := by
  apply Yields.of_start
  intro origin
  unfold itemStatement
  apply Continues.atStart
  apply Continues.pass orderly.item
  exact fun _ item carries =>
    (Continues.element (by grind) (by grind)).weaken fun _ _ held => held.encloses

/-! ## Statements -/

theorem nests_statement (orderly : Orderly nested) :
    Nests (fun answer => [answer.1]) (statement nested) := by
  intro before answer after done
  rcases exists_run_of_statement done with
    item | ⟨attributes, middle, ran, reader, isOne, continued⟩
  · exact nests_itemStatement orderly before answer.1 after item
  rcases yields_outerAttributes orderly before attributes middle ran with ⟨front, takes, inFront⟩
  have nests : Continues before front [] (fun all outline => Encloses all [outline]) reader := by
    simp only [List.mem_cons, List.not_mem_nil, or_false] at isOne
    rcases isOne with rfl | rfl | rfl
    · exact nests_macroStatement inFront.2
    · exact nests_letBinding orderly inFront.2
    · exact nests_expressionStatement orderly inFront
  rcases nests middle takes (.nothing front) answer.1 after continued with ⟨more, ended⟩
  exact ⟨front ++ more, ended⟩

theorem nests_emptyStatement : Nests (fun answer => answer.elim [] ([·])) emptyStatement := by
  apply Yields.of_start
  intro origin
  unfold emptyStatement
  apply Continues.atStart
  apply Continues.tried (takesIf_optionalSymbol rfl)
  · intro taken some
    extract_lets nothing
    have bare : Continues origin taken [] (fun all outline => Encloses all [outline])
        (element (.statement .expression) origin.position [nothing]) := by
      apply Continues.spanned some
      apply Continues.pure
      intro _ inPlace
      have between := TokenTree.turn_between inPlace some
      have positive := Nat.lt_of_le_of_lt between.1 between.2
      exact ⟨⟨⟨Nat.le_refl _, positive, Nat.le_refl _⟩, trivial, .inr ⟨rfl, rfl⟩⟩, trivial⟩
    exact .proceed bare fun _ _ fit => .pure fun _ => fit
  · exact .pure fun _ => encloses_nil.mpr trivial

theorem nests_statements (orderly : Orderly nested) : Nests id (statements nested) := by
  apply Yields.of_start
  intro origin
  unfold statements
  apply Continues.proceed
  · apply Continues.iterating fun taken state => Encloses taken state.1.reverse
    · exact encloses_nil.mpr trivial
    rintro taken ⟨found, done⟩ known
    dsimp only
    split
    · exact .pure fun _ => known
    apply Continues.pass nests_emptyStatement
    intro _ empty fit
    cases empty with
    | some outline => exact .pure fun _ => by grind
    | none =>
        apply Continues.quiet quiet_atEnd
        intro ended
        split
        · exact .pure fun _ => by grind
        apply Continues.pass (nests_statement orderly)
        rintro _ ⟨outline, goesOn⟩ outlineFits
        apply Continues.quiet quiet_atEnd
        intro ended
        split
        · exact .pure fun _ => by grind
        split
        · exact .pure fun _ => by grind
        · exact .fail
  · rintro _ ⟨found, _⟩ fit
    exact .pure fun _ => fit

end ProgramGraph.Grammar
