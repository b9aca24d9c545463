import ProgramGraph.Proofs.Grammar.Nesting.Type
import ProgramGraph.Proofs.Grammar.Pattern

/-!
# What patterns enclose

A pattern is an element of the trees that it takes, and what it holds fits into them.  Attributes
before a pattern become part of it, or of the element that gives it a type.
-/

namespace ProgramGraph.Grammar

open Source Outline

variable {nested : Nested} {origin : Cursor} {taken : List TokenTree}

/-! ## Alternatives -/

theorem carries_alternatives (orderly : Orderly nested) : Yields Carries (alternatives nested) := by
  apply Yields.of_start
  intro origin
  unfold alternatives
  apply Continues.atStart
  apply Continues.skip (idle_optionalSymbol _)
  intro _ leading
  apply Continues.pass orderly.pattern
  intro _ first carries
  apply Continues.pass
  · apply nests_gather collects_id
    apply Yields.of_start
    intro origin
    apply Continues.decided (quiet_sees _)
    · apply Continues.skip (idle_symbol _)
      intro _ _
      apply Continues.pass orderly.pattern
      exact fun _ pattern carries => .pure fun _ => by grind
    · exact .pure fun _ => by grind
  intro _ others fit
  split
  · exact .element (by grind) (by grind)
  · exact .pure fun _ => by grind

theorem nests_patternList (orderly : Orderly nested) : Nests id (patternList nested) :=
  nests_separated _ collects_id (nests_of_carries (carries_alternatives orderly))

/-! ## Ranges -/

theorem takesSome_limits (obsolete : Bool) : TakesSome (limits obsolete) := by
  apply Yields.of_start
  intro origin
  unfold limits
  apply Continues.quiet quiet_here
  intro start
  apply Continues.tried (takesIf_optionalSymbol rfl)
  · exact fun _ some => .pure fun _ => by grind
  apply Continues.tried (takesIf_whereAllowed _ (takesIf_optionalSymbol rfl))
  · exact fun _ some => .pure fun _ => by grind
  apply Continues.decided (quiet_sees _)
  · apply Continues.pass (takesSome_symbol rfl)
    exact fun _ _ some => .pure fun _ => by grind
  · exact .fail

theorem carries_pathExpression (orderly : Orderly nested) :
    Yields (fun taken outline => Carries taken outline ∧ Encloses taken outline.children)
      (pathExpression nested) := by
  apply Yields.of_start
  intro origin
  unfold pathExpression
  apply Continues.atStart
  apply Continues.pass (nests_qualifiedPath true orderly)
  rintro _ path ⟨some, fit⟩
  apply Continues.spanned (by grind)
  exact .pure fun _ => ⟨carries_element (by grind) rfl (by grind) (by grind), fit⟩

theorem nests_constBlock (orderly : Orderly nested) :
    NestsSome (fun parts => parts.1 ++ parts.2) (constBlock nested) := by
  apply Yields.of_start
  intro origin
  apply Continues.skip (idle_word _)
  intro _ _
  apply Continues.finish (nests_blockWithAttributes orderly)
  exact fun _ parts _ known => ⟨by grind, known.2.append_left⟩

/-- An end of a range fits into what it takes, as an expression and as a pattern. -/
def BoundFits (taken : List TokenTree) (answer : Option RangeBound) : Prop :=
  ∀ bound ∈ answer, Carries taken bound.outline ∧ Encloses taken bound.parts

theorem yields_boundFits (orderly : Orderly nested) : Yields BoundFits (rangeBound nested) := by
  apply Yields.of_start
  intro origin
  unfold rangeBound
  apply Continues.decided (quiet_sees _)
  · exact .pure fun _ bound impossible => by cases impossible
  apply Continues.atStart
  apply Continues.decided (quiet_sees _)
  · apply Continues.pass takesSome_literal
    intro _ _ some
    apply Continues.proceed (.element (by grind) (by grind))
    intro _ outline carries
    apply Continues.pure
    rintro _ _ ⟨⟩
    exact ⟨carries, by grind⟩
  apply Continues.decided (quiet_sees _)
  · apply Continues.pass (carries_pathExpression orderly)
    intro _ outline known
    apply Continues.pure
    rintro _ _ ⟨⟩
    exact known
  apply Continues.decided (quiet_sees _)
  · apply Continues.pass (nests_constBlock orderly)
    rintro _ ⟨attributes, statements⟩ ⟨some, fit⟩
    apply Continues.spanned (by grind)
    apply Continues.pure
    rintro _ _ ⟨⟩
    exact ⟨carries_element (by grind) rfl (by grind) (by grind), by simpa using fit⟩
  · exact .fail

theorem carries_rangeAfter (lower : Outline) (orderly : Orderly nested)
    (fits : Encloses taken [lower]) :
    Continues origin taken [] Carries (rangeAfter nested origin.position lower) := by
  unfold rangeAfter
  apply Continues.skip (idle_limits _)
  rintro _ ⟨place, closed⟩
  apply Continues.pass (yields_boundFits orderly)
  intro _ answer known
  cases answer with
  | some upper =>
      have upperFits := known upper rfl
      exact .element (by grind) (by grind)
  | none =>
      dsimp only
      split
      · exact .fail
      · exact .element (by grind) (by grind)

theorem carries_rangeTo (orderly : Orderly nested) : Yields Carries (rangeTo nested) := by
  apply Yields.of_start
  intro origin
  unfold rangeTo
  apply Continues.atStart
  apply Continues.pass (takesSome_limits _)
  rintro _ ⟨place, closed⟩ some
  apply Continues.pass (yields_boundFits orderly)
  intro _ answer known
  cases answer with
  | some upper =>
      have upperFits := known upper rfl
      exact .element (by grind) (by grind)
  | none =>
      dsimp only
      split
      · exact .fail
      · exact .element (by grind) (by grind)

theorem carries_literalPattern (orderly : Orderly nested) :
    Yields Carries (literalPattern nested) := by
  apply Yields.of_start
  intro origin
  unfold literalPattern
  apply Continues.atStart
  apply Continues.pass (yields_boundFits orderly)
  intro _ answer known
  cases answer with
  | none => exact .fail
  | some lower =>
      have lowerFits := known lower rfl
      apply Continues.decided (quiet_sees _)
      · exact carries_rangeAfter lower.outline orderly (by grind)
      · exact .element (by grind) (by grind)

/-! ## Structures -/

theorem nests_member : NestsSome (fun answer => answer.elim [] ([·])) member := by
  apply Yields.of_start
  intro origin
  unfold member
  apply Continues.quiet quiet_get
  intro cursor
  split
  · apply Continues.pass nests_identifier
    exact fun _ name fit => .pure fun _ => by grind
  · split
    · split
      · apply Continues.pass takesSome_literal
        exact fun _ _ some => .pure fun _ => by grind
      · exact .fail
    · exact .fail
  · exact .fail

theorem nests_fieldPattern (orderly : Orderly nested) : Nests id (fieldPattern nested) := by
  apply Yields.of_start
  intro origin
  unfold fieldPattern
  apply Continues.atStart
  apply Continues.skip (idle_optionalWord _)
  intro _ boxed
  apply Continues.skip (idle_optionalWord _)
  intro _ byReference
  apply Continues.skip (idle_optionalWord _)
  intro _ mutable
  extract_lets marked
  have identifier : NestsSome (fun answer : Option Outline => answer.elim [] ([·]))
      (do return some (← identifier)) := by
    apply Yields.of_start
    intro origin
    apply Continues.pass nests_identifier
    exact fun _ name fit => .pure fun _ => by grind
  apply Continues.passEither (fun _ => identifier) (fun _ => nests_member)
  rintro _ field ⟨some, fit⟩
  cases field with
  | none =>
      apply Continues.skip (idle_symbol _)
      intro _ _
      apply Continues.pass (carries_alternatives orderly)
      exact fun _ pattern carries => .pure fun _ => by grind
  | some field =>
      apply Continues.skip (idle_whereAllowed _ (idle_optionalSymbol _))
      intro _ given
      split
      · apply Continues.pass (carries_alternatives orderly)
        exact fun _ pattern carries => .pure fun _ => by grind
      split
      · apply Continues.proceed (.element (by grind) (by grind))
        exact fun _ pattern carries => .pure fun _ => by grind
      · apply Continues.proceed (.element (by grind) (by grind))
        exact fun _ pattern carries => .pure fun _ => by grind

theorem nests_fieldPatterns (orderly : Orderly nested) : Nests id (fieldPatterns nested) := by
  apply Yields.of_start
  intro origin
  unfold fieldPatterns
  apply Continues.proceed
  · apply Continues.iterating fun taken state => Encloses taken state.1.reverse.flatten
    · exact encloses_nil.mpr trivial
    rintro taken ⟨found, done⟩ known
    apply Continues.quiet quiet_atEnd
    intro ended
    split
    · exact .pure fun _ => known
    apply Continues.pass (nests_outerAttributes orderly)
    intro _ attributes attributesFit
    apply Continues.skip (idle_optionalSymbol _)
    intro _ others
    split
    · exact .pure fun _ => by grind
    · apply Continues.pass (nests_fieldPattern orderly)
      intro _ parts fit
      apply Continues.separator quiet_atEnd
      exact fun _ => .pure fun _ => by grind
  · rintro _ ⟨found, _⟩ fit
    exact .pure fun _ => fit

theorem carries_namedPattern (orderly : Orderly nested) : Yields Carries (namedPattern nested) := by
  apply Yields.of_start
  intro origin
  unfold namedPattern
  apply Continues.atStart
  apply Continues.pass (nests_qualifiedPath true orderly)
  rintro _ path ⟨some, fit⟩
  apply Continues.quiet (quiet_sees _)
  intro exclaims
  split
  · apply Continues.skip idle_macroArguments
    exact fun _ _ => .element (by grind) (by grind)
  apply Continues.decided (quiet_sees _)
  · apply Continues.pass (nests_inside _ _ (nests_fieldPatterns orderly))
    exact fun _ fields fieldsFit => .element (by grind) (by grind)
  apply Continues.decided (quiet_sees _)
  · apply Continues.pass (nests_inside _ _ (nests_patternList orderly))
    exact fun _ elements elementsFit => .element (by grind) (by grind)
  apply Continues.decided (quiet_sees _)
  · apply Continues.spanned (by grind)
    apply carries_rangeAfter _ orderly
    exact (carries_element (by grind) rfl (by grind) (by grind)).encloses
  · exact .element (by grind) (by grind)

/-! ## The other patterns -/

theorem carries_bindingPattern (orderly : Orderly nested) :
    Yields Carries (bindingPattern nested) := by
  apply Yields.of_start
  intro origin
  unfold bindingPattern
  apply Continues.atStart
  apply Continues.skip (idle_optionalWord _)
  intro _ _
  apply Continues.skip (idle_optionalWord _)
  intro _ _
  apply Continues.pass (nests_nameWhere (seesWords_identifierNext.either (seesWords_wordNext _)))
  intro _ name fit
  apply Continues.skip (idle_optionalSymbol _)
  intro _ given
  apply Continues.passEither (fun _ => Nests.one (nests_of_carries orderly.pattern))
    (fun _ => Nests.none)
  exact fun _ whole wholeFit => .element (by grind) (by grind)

theorem carries_enclosedPattern (orderly : Orderly nested) :
    Yields Carries (enclosedPattern nested) := by
  apply Yields.of_start
  intro origin
  unfold enclosedPattern
  apply Continues.atStart
  apply Continues.pass
  · apply nests_inside (·.1)
    apply Yields.of_start
    intro origin
    apply Continues.decided quiet_atEnd
    · exact .pure fun _ => by grind
    apply Continues.pass (carries_alternatives orderly)
    intro _ first carries
    apply Continues.decided quiet_atEnd
    · exact .pure fun _ => by grind
    · apply Continues.skip (idle_symbol _)
      intro _ _
      apply Continues.pass (nests_patternList orderly)
      exact fun _ others fit => .pure fun _ => by grind
  rintro _ ⟨elements, alone⟩ ⟨some, fit⟩
  exact .element (by grind) (by grind)

theorem carries_sliceElement (orderly : Orderly nested) : Yields Carries (sliceElement nested) := by
  apply Yields.of_start
  intro origin
  apply Continues.pass (carries_alternatives orderly)
  intro _ pattern carries
  split
  · exact .failAt _
  · exact .pure fun _ => by grind

theorem carries_pattern (orderly : Orderly nested) : Yields Carries (pattern nested) := by
  apply Yields.of_start
  intro origin
  unfold pattern
  apply Continues.atStart
  apply Continues.decided (quiet_sees _)
  · exact .restart (carries_namedPattern orderly)
  apply Continues.tried (takesIf_optionalWord _)
  · exact fun _ some => .element (by grind) (by grind)
  apply Continues.tried (takesIf_optionalWord _)
  · intro _ some
    apply Continues.skip (.of_yields orderly.pattern)
    exact fun _ _ => .element (by grind) (by grind)
  apply Continues.decided (quiet_sees _)
  · exact .restart (carries_literalPattern orderly)
  apply Continues.decided (quiet_sees _)
  · exact .restart (carries_bindingPattern orderly)
  apply Continues.tried (takesIf_optionalSymbol rfl)
  · intro _ some
    apply Continues.skip (idle_optionalWord _)
    intro _ _
    apply Continues.pass orderly.pattern
    exact fun _ inner carries => .element (by grind) (by grind)
  apply Continues.decided (quiet_sees _)
  · exact .restart (carries_enclosedPattern orderly)
  apply Continues.decided (quiet_sees _)
  · have slice := nests_separated "," collects_id (nests_of_carries (carries_sliceElement orderly))
    apply Continues.pass (nests_inside _ _ slice)
    exact fun _ elements fit => .element (by grind) (by grind)
  apply Continues.decided (quiet_sees _)
  · exact .restart (carries_rangeTo orderly)
  · exact .fail

/-- The attributes before a pattern become its own, or those of the element that gives it a
type. -/
theorem carries_typedPattern (attributes : List Outline) (orderly : Orderly nested)
    (inFront : InFront taken attributes) :
    Continues origin taken [] Carries (typedPattern nested attributes origin.position) := by
  apply Continues.begun
  intro begins
  unfold typedPattern
  apply Continues.pass orderly.pattern
  intro _ pattern carries
  apply Continues.tried (takesIf_optionalSymbol rfl)
  · intro _ _
    apply Continues.pass (orderly.type true)
    intro _ type typeCarries
    apply Continues.element (by grind)
    apply encloses_ascription
    · exact inFront.2.append_right.append_right.append_right
    · grind
    · grind
  · exact .pure fun _ => carries.attach inFront.2 inFront.1 begins

end ProgramGraph.Grammar
