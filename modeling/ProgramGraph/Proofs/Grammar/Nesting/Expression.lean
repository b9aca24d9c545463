import ProgramGraph.Proofs.Grammar.Expression
import ProgramGraph.Proofs.Grammar.Nesting.Fraction
import ProgramGraph.Proofs.Grammar.Nesting.Pattern

/-!
# What expressions enclose

An expression is an element of the trees that it takes, and what it holds fits into them.  What
trails an operand, and what follows it as an operator, begins with the operand and ends with what is
taken last.
-/

namespace ProgramGraph.Grammar

open Source Outline

variable {nested : Nested} {origin : Cursor} {taken : List TokenTree}

/-! ## Parts of expressions -/

theorem nests_expressionList (orderly : Orderly nested) : Nests id (expressionList nested) :=
  nests_separated _ collects_id (orderly.expressions true)

theorem carries_blockExpression (orderly : Orderly nested) :
    Yields Carries (blockExpression nested) := by
  apply Yields.of_start
  intro origin
  unfold blockExpression
  apply Continues.atStart
  apply Continues.pass (nests_block orderly)
  exact fun _ statements known => .element (by grind) (by grind)

theorem carries_elementWithBlock (form : ExpressionForm) (children : List Outline)
    (orderly : Orderly nested) (fit : Encloses taken children) :
    Continues origin taken [] Carries
      (elementWithBlock nested form origin.position children) := by
  unfold elementWithBlock
  apply Continues.pass (nests_blockWithAttributes orderly)
  rintro _ ⟨attributes, statements⟩ ⟨some, blockFits⟩
  apply Continues.spanned (by grind)
  exact .pure fun _ => carries_element (by grind) rfl (by grind) (by grind)

theorem nests_optionalExpression (look : Look) (orderly : Orderly nested) :
    Nests id (optionalExpression nested look) := by
  apply Yields.of_start
  intro origin
  apply Continues.decided (quiet_sees _)
  · exact .restart (Nests.one (orderly.expressions true))
  · exact .restart Nests.none

theorem nests_rangeUpper (structs closed : Bool) (orderly : Orderly nested) :
    Nests id (rangeUpper nested structs closed) := by
  apply Yields.of_start
  intro origin
  unfold rangeUpper
  apply Continues.quiet (quiet_sees _)
  intro isOpen
  split
  · exact .pure fun _ => by grind
  · exact .restart (Nests.one (nests_of_carries (orderly.operand structs .range)))

/-! ## What trails an operand -/

/-- The fields of a fraction begin with the operand, and end where the fraction does at the
latest. -/
theorem extends_selected {operand : Outline} {text : String} {span : Span} {ends : List Nat}
    (number : isNumber text)
    (found : fieldEnds span.first
      (if (text.splitOn ".").getLast? == some "" then (text.splitOn ".").dropLast
        else text.splitOn ".") = some ends) :
    Extends operand [.leaf ⟨.literal, text, span⟩] (selected operand.span.first ends operand) := by
  intro front carries inPlace
  have some := carries.ne_nil
  have spans := carries (TokenTree.allInPlace_append.mp inPlace).1
  rcases TokenTree.allInPlace_append.mp inPlace with ⟨frontInPlace, ⟨⟨positive, long⟩, _⟩, before⟩
  rcases TokenTree.exists_extent some with ⟨_, last, lastIn, ends', turns⟩
  have order := before last lastIn _ (.head _)
  have apart : (TokenTree.extent front).last ≤ span.first := by
    rw [ends']
    exact order.apart (.inr number)
  have long : span.first + text.length ≤ span.last := long number
  have first : (TokenTree.extent (front ++ [.leaf ⟨.literal, text, span⟩])).first =
      (TokenTree.extent front).first := TokenTree.extent_append_first some _
  have ended : (TokenTree.extent (front ++ [.leaf ⟨.literal, text, span⟩])).last = span.last :=
    TokenTree.extent_append_last front (by simp)
  have turn : TokenTree.turn (front ++ [.leaf ⟨.literal, text, span⟩]) = span.first :=
    TokenTree.turn_append front (by simp)
  have short := width_splitOn text
  refine ⟨isSome_form?_selected ends operand spans.isElement, ?_, ?_⟩
  · rw [first, ended]
    apply fits_selected _ found spans.fits spans.isElement apart (by omega)
    split
    · have less := width_dropLast_le (text.splitOn ".")
      omega
    · omega
  · rw [span_first_selected ends operand rfl, turn]
    have : last.first ≤ span.first := order.first
    have := spans.first_le
    omega

theorem extends_fractionFields (operand : Outline) :
    Yields
      (fun taken answer => Extends operand taken answer.1 ∧
        answer.1.span.first = operand.span.first)
      (fractionFields operand) := by
  intro before value after done
  rcases run_bind_eq_ok_iff.mp done with ⟨cursor, _, got, rest⟩
  cases got
  split at rest
  · next text span others begins =>
    split at rest
    · next isFraction =>
      dsimp only at rest
      split at rest
      · next ends found =>
        rcases run_bind_eq_ok_iff.mp rest with ⟨tree, middle, took, same⟩
        cases same
        rcases yields_take _ _ _ took with ⟨_, takes, rfl⟩
        have only : tree = .leaf ⟨.literal, text, span⟩ :=
          (List.cons.inj (takes.rest.symm.trans begins)).1
        subst only
        refine ⟨_, takes, ?_, span_first_selected ends operand rfl⟩
        rw [Bool.and_eq_true] at isFraction
        exact extends_selected isFraction.1 found
      · cases rest
    · cases rest
      exact ⟨[], .refl _, .refl _, rfl⟩
  · cases rest
    exact ⟨[], .refl _, .refl _, rfl⟩

theorem extends_afterDot (operand : Outline) (orderly : Orderly nested) :
    Yields (Extends operand) (afterDot nested operand) := by
  apply Yields.of_start
  intro origin
  unfold afterDot
  extract_lets start
  apply Continues.pass (extends_fractionFields operand)
  rintro fraction ⟨field, goesOn⟩ ⟨extended, same⟩
  dsimp only
  split
  · exact .pure fun _ => extended
  have begins : start = field.span.first := same.symm
  rw [begins]
  refine Continues.finish (?_ : Yields (Extends field) _) fun _ _ _ next => extended.trans next
  apply Yields.of_start
  intro origin
  apply Continues.tried (takesIf_optionalWord _)
  · exact fun _ some => .extending (by grind) (by grind)
  apply Continues.pass nests_member
  rintro _ name ⟨some, fit⟩
  cases name with
  | none => exact .extending (by grind) (by grind)
  | some name =>
      apply Continues.skip (idle_optionalSymbol _)
      intro _ turbofish
      apply Continues.passEither (fun _ => nests_angleArguments orderly) (fun _ => Nests.none)
      intro _ arguments argumentsFit
      apply Continues.quiet (quiet_sees _)
      intro round
      split
      · apply Continues.pass (nests_inside _ _ (nests_expressionList orderly))
        exact fun _ inputs inputsFit => .extending (by grind) (by grind)
      · exact .extending (by grind) (by grind)

theorem extends_trailer (operand : Outline) (orderly : Orderly nested) :
    Yields (fun taken answer => Extends operand taken (answer.getD operand))
      (trailer nested operand) := by
  apply Yields.of_start
  intro origin
  unfold trailer
  extract_lets start isRange
  apply Continues.decided (quiet_sees _)
  · apply Continues.pass (nests_inside _ _ (nests_expressionList orderly))
    intro _ inputs inputsFit
    apply Continues.proceed (.extending (by grind) (by grind))
    exact fun _ outline extended => .pure fun _ => extended
  apply Continues.quiet (quiet_sees _)
  intro dot
  split
  · apply Continues.skip (idle_symbol _)
    intro _ _
    apply Continues.pass (extends_afterDot operand orderly)
    exact fun _ outline extended => .pure fun _ => extended.after _
  apply Continues.decided (quiet_sees _)
  · apply Continues.pass (nests_inside _ _ (orderly.expressions true))
    intro _ index indexFits
    apply Continues.proceed (.extending (by grind) (by grind))
    exact fun _ outline extended => .pure fun _ => extended
  apply Continues.tried (takesIf_whereAllowed _ (takesIf_optionalSymbol rfl))
  · intro _ some
    apply Continues.proceed (.extending (by grind) (by grind))
    exact fun _ outline extended => .pure fun _ => extended
  · exact .pure fun _ => .refl operand

theorem extends_trailers (operand : Outline) (orderly : Orderly nested) :
    Yields (Extends operand) (trailers nested operand) := by
  apply yields_iterate (Extends operand) (.refl operand)
  intro taken outline known
  apply (extends_trailer outline orderly).weaken
  exact fun _ _ next => known.trans next

/-! ## Atoms -/

theorem nests_fieldValue (orderly : Orderly nested) : Nests id (fieldValue nested) := by
  apply Yields.of_start
  intro origin
  unfold fieldValue
  apply Continues.pass (nests_outerAttributes orderly)
  intro _ attributes attributesFit
  apply Continues.pass yields_member
  intro _ field named
  cases field with
  | none =>
      apply Continues.skip (idle_symbol _)
      intro _ _
      apply Continues.pass (orderly.expression true)
      exact fun _ value carries => .pure fun _ => by grind
  | some field =>
      rcases named field rfl with ⟨text, span, rfl, rfl, _⟩
      have nameFits := encloses_name text span
      apply Continues.skip (idle_optionalSymbol _)
      intro _ given
      split
      · apply Continues.pass (orderly.expression true)
        exact fun _ value carries => .pure fun _ => by grind
      · have pathFits : Encloses [.leaf ⟨.word, text, span⟩]
            [.element (.expression .path) (Outline.name span).span [] [.name span]] :=
          nameFits.element_of_name
        exact .pure fun _ => by grind

theorem nests_fieldValues (orderly : Orderly nested) : Nests id (fieldValues nested) := by
  apply Yields.of_start
  intro origin
  unfold fieldValues
  apply Continues.proceed
  · apply Continues.iterating fun taken state => Encloses taken state.1.reverse.flatten
    · exact encloses_nil.mpr trivial
    rintro taken ⟨found, done⟩ known
    apply Continues.quiet quiet_atEnd
    intro ended
    split
    · exact .pure fun _ => known
    apply Continues.skip (idle_optionalSymbol _)
    intro _ others
    split
    · apply Continues.quiet quiet_atEnd
      intro ended
      apply Continues.passEither (fun _ => Nests.none)
        (fun _ => Nests.one (orderly.expressions true))
      exact fun _ others fit => .pure fun _ => by grind
    · apply Continues.pass (nests_fieldValue orderly)
      intro _ parts fit
      apply Continues.separator quiet_atEnd
      exact fun _ => .pure fun _ => by grind
  · rintro _ ⟨found, _⟩ fit
    exact .pure fun _ => fit

theorem carries_namedExpression (structs : Bool) (orderly : Orderly nested) :
    Yields Carries (namedExpression nested structs) := by
  apply Yields.of_start
  intro origin
  unfold namedExpression
  apply Continues.atStart
  apply Continues.pass (nests_qualifiedPath true orderly)
  rintro _ path ⟨some, fit⟩
  apply Continues.quiet (quiet_sees _)
  intro exclaims
  split
  · apply Continues.skip idle_macroArguments
    intro _ _
    apply Continues.quiet quiet_get
    exact fun cursor => .element (by grind) (by grind)
  apply Continues.quiet (quiet_sees _)
  intro curly
  split
  · apply Continues.pass (nests_inside _ _ (nests_fieldValues orderly))
    exact fun _ fields fieldsFit => .element (by grind) (by grind)
  · exact .element (by grind) (by grind)

theorem carries_enclosedExpression (orderly : Orderly nested) :
    Yields Carries (enclosedExpression nested) := by
  apply Yields.of_start
  intro origin
  unfold enclosedExpression
  apply Continues.atStart
  apply Continues.pass
  · apply nests_inside (·.2)
    apply Yields.of_start
    intro origin
    apply Continues.decided quiet_atEnd
    · exact .pure fun _ => by grind
    apply Continues.pass (orderly.expression true)
    intro _ first carries
    apply Continues.decided quiet_atEnd
    · exact .pure fun _ => by grind
    · apply Continues.skip (idle_symbol _)
      intro _ _
      apply Continues.pass (nests_expressionList orderly)
      exact fun _ others fit => .pure fun _ => by grind
  rintro _ ⟨form, elements⟩ ⟨some, fit⟩
  exact .element (by grind) (by grind)

theorem carries_arrayExpression (orderly : Orderly nested) :
    Yields Carries (arrayExpression nested) := by
  apply Yields.of_start
  intro origin
  unfold arrayExpression
  apply Continues.atStart
  apply Continues.pass
  · apply nests_inside (·.2)
    apply Yields.of_start
    intro origin
    apply Continues.decided quiet_atEnd
    · exact .pure fun _ => by grind
    apply Continues.pass (orderly.expression true)
    intro _ first carries
    apply Continues.decided quiet_atEnd
    · exact .pure fun _ => by grind
    apply Continues.skip (idle_optionalSymbol _)
    intro _ listed
    split
    · apply Continues.pass (nests_expressionList orderly)
      exact fun _ others fit => .pure fun _ => by grind
    · apply Continues.skip (idle_symbol _)
      intro _ _
      apply Continues.pass (orderly.expression true)
      exact fun _ count countCarries => .pure fun _ => by grind
  rintro _ ⟨form, elements⟩ ⟨some, fit⟩
  exact .element (by grind) (by grind)

theorem carries_closureParameter (orderly : Orderly nested) :
    Yields Carries (closureParameter nested) := by
  apply Yields.of_start
  intro origin
  unfold closureParameter
  apply Continues.atStart
  apply Continues.pass (yields_outerAttributes orderly)
  exact fun _ attributes inFront => carries_typedPattern attributes orderly inFront

theorem carries_closure (structs : Bool) (orderly : Orderly nested) :
    Yields Carries (closure nested structs) := by
  apply Yields.of_start
  intro origin
  unfold closure
  apply Continues.atStart
  apply Continues.pass (nests_forLifetimes orderly)
  rintro _ ⟨lifetimes, _⟩ fit
  apply Continues.skipping fit.append_left (idle_optionalWord _)
  intro _ _ fit
  apply Continues.skipping fit (idle_optionalWord _)
  intro _ _ fit
  apply Continues.skipping fit (idle_optionalWord _)
  intro _ _ fit
  apply Continues.skipping fit (idle_optionalWord _)
  intro _ _ fit
  apply Continues.skipping fit (idle_symbol _)
  intro _ _ fit
  apply Continues.adding fit
    (nests_listed _ _ collects_id (nests_of_carries (carries_closureParameter orderly)))
  intro _ inputs fit
  apply Continues.skipping fit (idle_symbol _)
  intro _ _ fit
  apply Continues.adding fit (nests_returned true orderly)
  intro _ output fit
  apply Continues.addingEither fit (fun _ => orderly.expressions structs)
    (fun _ => nests_of_carries (carries_blockExpression orderly))
  exact fun _ body fit => .element (by grind) fit

theorem carries_conditional (orderly : Orderly nested) : Yields Carries (conditional nested) := by
  apply Yields.of_start
  intro origin
  unfold conditional
  apply Continues.atStart
  apply Continues.skip (idle_word _)
  intro _ _
  apply Continues.adding (encloses_nil.mpr trivial) (orderly.expressions false)
  intro _ condition fit
  apply Continues.adding fit (nests_block orderly).nests
  intro _ statements fit
  apply Continues.skipping fit (idle_optionalWord _)
  intro _ given fit
  extract_lets rest
  have carries : ∀ taken otherwise, Encloses taken ([] ++ [condition] ++ statements ++ otherwise) →
      Continues origin taken [] Carries (rest otherwise) := by
    exact fun taken otherwise fit => .element (by grind) fit
  split
  · apply Continues.quiet (quiet_sees _)
    intro goesOn
    split
    · apply Continues.adding fit (nests_of_carries orderly.conditional)
      exact fun _ otherwise fit => .pure_bind (carries _ [otherwise] fit)
    · apply Continues.adding fit (nests_of_carries (carries_blockExpression orderly))
      exact fun _ otherwise fit => .pure_bind (carries _ [otherwise] fit)
  · exact .pure_bind (carries _ [] (by grind))

theorem nests_arm (orderly : Orderly nested) : Nests id (arm nested) := by
  apply Yields.of_start
  intro origin
  unfold arm
  apply Continues.adding (encloses_nil.mpr trivial) (nests_outerAttributes orderly)
  intro _ attributes fit
  apply Continues.adding fit (nests_of_carries (carries_alternatives orderly))
  intro _ pattern fit
  apply Continues.skipping fit (idle_optionalWord _)
  intro _ given fit
  apply Continues.addingEither fit (fun _ => Nests.one (orderly.expressions true))
    (fun _ => Nests.none)
  intro _ condition fit
  apply Continues.skipping fit (idle_symbol _)
  intro _ _ fit
  apply Continues.adding fit (nests_of_carries orderly.early)
  intro _ body fit
  apply Continues.quiet quiet_atEnd
  intro ended
  split
  · apply Continues.skip (idle_optionalSymbol _)
    exact fun _ _ => .pure fun _ => by grind
  · apply Continues.skip (idle_symbol _)
    exact fun _ _ => .pure fun _ => by grind

theorem carries_matchExpression (orderly : Orderly nested) :
    Yields Carries (matchExpression nested) := by
  apply Yields.of_start
  intro origin
  unfold matchExpression
  apply Continues.atStart
  apply Continues.skip (idle_word _)
  intro _ _
  apply Continues.pass (orderly.expression false)
  intro _ scrutinee carries
  apply Continues.pass
  · apply nests_inside fun parts => parts.1 ++ parts.2.flatten
    apply Yields.of_start
    intro origin
    apply Continues.pass (nests_innerAttributes orderly)
    intro _ attributes attributesFit
    apply Continues.pass (nests_everything collects_flatten (nests_arm orderly))
    exact fun _ arms armsFit => .pure fun _ => by grind
  rintro _ ⟨attributes, arms⟩ ⟨some, fit⟩
  apply Continues.spanned (by grind)
  exact .pure fun _ => carries_element (by grind) rfl (by grind) (by grind)

theorem carries_loopExpression (label : List Outline) (orderly : Orderly nested)
    (labelFits : Encloses taken label) :
    Continues origin taken [] Carries (loopExpression nested origin.position label) := by
  unfold loopExpression
  apply Continues.tried (takesIf_optionalWord _)
  · intro _ _
    apply Continues.pass (orderly.expression false)
    exact fun _ condition carries => carries_elementWithBlock _ _ orderly (by grind)
  apply Continues.tried (takesIf_optionalWord _)
  · intro _ _
    apply Continues.pass (carries_alternatives orderly)
    intro _ pattern patternCarries
    apply Continues.skip (idle_word _)
    intro _ _
    apply Continues.pass (orderly.expression false)
    exact fun _ values carries => carries_elementWithBlock _ _ orderly (by grind)
  apply Continues.tried (takesIf_optionalWord _)
  · exact fun _ _ => carries_elementWithBlock _ _ orderly (by grind)
  · exact carries_elementWithBlock _ _ orderly labelFits

theorem carries_labelled (orderly : Orderly nested) : Yields Carries (labelled nested) := by
  apply Yields.of_start
  intro origin
  unfold labelled
  apply Continues.atStart
  apply Continues.pass nests_lifetime
  intro _ label fit
  apply Continues.skip (idle_symbol _)
  exact fun _ _ => carries_loopExpression [label] orderly (by grind)

theorem carries_breakOut (structs : Bool) (orderly : Orderly nested) :
    Yields Carries (breakOut nested structs) := by
  apply Yields.of_start
  intro origin
  unfold breakOut
  apply Continues.atStart
  apply Continues.pass (takesSome_word _)
  intro _ _ some
  apply Continues.quiet quiet_here
  intro place
  apply Continues.quiet (quiet_sees _)
  intro labelled
  split
  · apply Continues.skip (.of_yields (orderly.expression true))
    exact fun _ _ => .failAt_bind place
  · apply Continues.pass nests_optionalLifetime
    intro _ label labelFits
    apply Continues.pass (nests_optionalExpression _ orderly)
    exact fun _ value valueFits => .element (by grind) (by grind)

theorem carries_letCondition (structs : Bool) (orderly : Orderly nested) :
    Yields Carries (letCondition nested structs) := by
  apply Yields.of_start
  intro origin
  unfold letCondition
  apply Continues.atStart
  apply Continues.skip (idle_word _)
  intro _ _
  apply Continues.adding (encloses_nil.mpr trivial)
    (nests_of_carries (carries_alternatives orderly))
  intro _ pattern fit
  apply Continues.skipping fit (idle_symbol _)
  intro before _ fit
  apply Continues.pass (orderly.unary structs)
  intro front left carries
  apply Continues.pass (orderly.operators left structs .compare)
  intro _ value extended
  have valueCarries := extended (before ++ front) carries.append_left
  exact .element (by grind) (by grind)

theorem carries_builtin : Yields Carries builtin := by
  apply Yields.of_start
  intro origin
  unfold builtin
  apply Continues.atStart
  apply Continues.pass (takesSome_takeMany 1)
  intro _ _ some
  apply Continues.skip (.of_yields nests_identifier)
  intro _ _
  apply Continues.skip (idle_takeWhere _ _)
  exact fun _ _ => .element (by grind) (by grind)

theorem carries_atom (structs : Bool) (orderly : Orderly nested) :
    Yields Carries (atom nested structs) := by
  apply Yields.of_start
  intro origin
  unfold atom
  apply Continues.atStart
  apply Continues.decided (quiet_sees _)
  · apply Continues.pass takesSome_literal
    exact fun _ _ some => .element (by grind) (by grind)
  apply Continues.decided (quiet_sees _)
  · apply Continues.skip (idle_word _)
    intro _ _
    apply Continues.skip (idle_optionalWord _)
    intro _ _
    apply Continues.pass (nests_block orderly)
    exact fun _ statements known => .element (by grind) (by grind)
  apply Continues.tried (takesIf_takeIf _ 0)
  · intro _ some
    apply Continues.pass (nests_block orderly)
    exact fun _ statements known => .element (by grind) (by grind)
  apply Continues.decided (quiet_sees _)
  · exact .restart (carries_closure structs orderly)
  apply Continues.decided (quiet_sees _)
  · exact .restart carries_builtin
  apply Continues.decided (quiet_sees _)
  · exact .restart (carries_namedExpression structs orderly)
  apply Continues.decided (quiet_sees _)
  · exact .restart (carries_enclosedExpression orderly)
  apply Continues.decided (quiet_sees _)
  · exact .restart (carries_breakOut structs orderly)
  apply Continues.tried (takesIf_optionalWord _)
  · intro _ some
    apply Continues.pass nests_optionalLifetime
    exact fun _ label fit => .element (by grind) (by grind)
  apply Continues.tried (takesIf_optionalWord _)
  · intro _ some
    apply Continues.pass (nests_optionalExpression _ orderly)
    exact fun _ value fit => .element (by grind) (by grind)
  apply Continues.tried (takesIf_optionalWord _)
  · intro _ some
    apply Continues.skip (.of_yields (orderly.expression true))
    exact fun _ _ => .element (by grind) (by grind)
  apply Continues.decided (quiet_sees _)
  · exact .restart (carries_arrayExpression orderly)
  apply Continues.decided (quiet_sees _)
  · exact .restart (carries_letCondition structs orderly)
  apply Continues.decided (quiet_sees _)
  · exact .restart orderly.conditional
  apply Continues.decided (quiet_sees _)
  · exact carries_loopExpression [] orderly (by grind)
  apply Continues.decided (quiet_sees _)
  · exact .restart (carries_matchExpression orderly)
  apply Continues.tried (takesIf_optionalWord _)
  · intro _ some
    apply Continues.pass (nests_optionalExpression _ orderly)
    exact fun _ value fit => .element (by grind) (by grind)
  apply Continues.tried (takesIf_optionalWord _)
  · exact fun _ _ => carries_elementWithBlock _ _ orderly (by grind)
  apply Continues.tried (takesIf_optionalWord _)
  · exact fun _ _ => carries_elementWithBlock _ _ orderly (by grind)
  apply Continues.decided (quiet_sees _)
  · apply Continues.pass (takesSome_limits _)
    rintro _ ⟨place, closed⟩ some
    apply Continues.pass (nests_rangeUpper structs closed orderly)
    exact fun _ upper fit => .element (by grind) (by grind)
  apply Continues.tried (takesIf_optionalWord _)
  · exact fun _ some => .element (by grind) (by grind)
  apply Continues.decided (quiet_sees _)
  · exact .restart (carries_labelled orderly)
  · exact .fail

/-! ## Operands and operators -/

theorem carries_trailed {front : List TokenTree} {start : Nat} (structs : Bool)
    (attributes : List Outline) (orderly : Orderly nested) (inFront : InFront front attributes)
    (begins : start = if front = [] then origin.position else (TokenTree.extent front).first) :
    Continues origin [] [] (fun more outline => Carries (front ++ more) outline)
      (trailed nested structs start attributes) := by
  unfold trailed
  apply Continues.quiet quiet_here
  intro place
  apply Continues.pass (carries_atom structs orderly)
  intro taken first carries
  apply Continues.pass (extends_trailers first orderly)
  intro more outline extended
  have outlineCarries := carries.of_extends extended
  split
  · apply Continues.begun
    intro position
    apply Continues.stretched
    intro span begun ended
    have some := outlineCarries.ne_nil
    have starts : span.first = (TokenTree.extent (front ++ (taken ++ more))).first := by
      rw [begun, begins]
      split
      · next none => simpa [none] using position some
      · next frontSome => rw [TokenTree.extent_append_first frontSome]
    have ends := (ended some).trans (TokenTree.extent_append_last front some).symm
    have covers : span = TokenTree.extent (front ++ (taken ++ more)) := by
      cases span; exact congrArg₂ Source.Span.mk starts ends
    exact .pure fun _ => carries_element (by grind) covers (by simp) (by simp)
  · split
    · exact .pure fun _ => outlineCarries.append_left
    · exact .failAt place
  · exact .pure fun _ =>
      outlineCarries.attach inFront.2 inFront.1 fun some => by simp [begins, some]

theorem carries_unary (structs : Bool) (orderly : Orderly nested) :
    Yields Carries (unary nested structs) := by
  apply Yields.of_start
  intro outer
  unfold unary
  apply Continues.atStart
  apply Continues.pass (yields_outerAttributes orderly)
  intro front attributes inFront
  apply Continues.restarting
  intro origin begins
  have attached : ∀ {taken outline}, Carries taken outline →
      Carries (front ++ taken) (outline.attach outer.position attributes) :=
    fun carries => carries.attach inFront.2 inFront.1 fun some => by simp_all
  apply Continues.atStart
  apply Continues.tried (takesIf_optionalSymbol rfl)
  · intro _ _
    apply Continues.skip (idle_takeIf _ _)
    intro _ raw
    apply Continues.skip (idle_optionalWord _)
    intro _ mutable
    extract_lets rest
    have carries : ∀ taken done, Continues origin taken []
        (fun more outline => Carries (front ++ more) outline) (rest done) := by
      intro taken done
      apply Continues.pass (orderly.unary structs)
      intro _ operand carries
      apply Continues.proceed (.element (by grind) (by grind))
      exact fun _ outline carries => .pure fun _ => attached carries
    split
    · exact .skip (idle_word _) fun _ done => carries _ done
    · exact carries _ ()
  apply Continues.tried (takesIf_takeIf _ 0)
  · intro _ _
    apply Continues.pass (orderly.unary structs)
    intro _ operand carries
    apply Continues.proceed (.element (by grind) (by grind))
    exact fun _ outline carries => .pure fun _ => attached carries
  · exact carries_trailed structs attributes orderly inFront begins

/-! ### Operators -/

theorem extends_operatorStep (structs : Bool) (base : Precedence) (left : Outline)
    (orderly : Orderly nested) :
    Yields (fun taken answer => Extends left taken (answer.getD left))
      (operatorStep nested structs base left) := by
  have nothing : ∀ origin, Continues origin [] []
      (fun taken (answer : Option Outline) => Extends left taken (answer.getD left))
      (pure none) := fun origin => .pure fun _ => .refl left
  apply Yields.of_start
  intro origin
  unfold operatorStep
  extract_lets start
  split
  · exact nothing origin
  apply Continues.quiet quiet_get
  intro cursor
  split
  · extract_lets comparison
    split
    · exact nothing origin
    split
    · exact .fail_bind
    apply Continues.skip (idle_symbol _)
    intro _ _
    apply Continues.pass (orderly.operand structs _)
    intro _ right carries
    apply Continues.proceed (.extending (by grind) (by grind))
    exact fun _ outline extended => .pure fun _ => extended
  · apply Continues.quiet (quiet_sees _)
    intro assigns
    split
    · apply Continues.skip (idle_symbol _)
      intro _ _
      apply Continues.pass (orderly.operand structs .assign)
      intro _ right carries
      apply Continues.proceed (.extending (by grind) (by grind))
      exact fun _ outline extended => .pure fun _ => extended
    apply Continues.quiet (quiet_sees _)
    intro range
    split
    · apply Continues.pass (takesSome_limits _)
      rintro _ ⟨place, closed⟩ some
      apply Continues.pass (nests_rangeUpper structs closed orderly)
      intro _ upper fit
      apply Continues.proceed (.extending (by grind) (by grind))
      exact fun _ outline extended => .pure fun _ => extended
    apply Continues.tried (takesIf_whereAllowed _ (takesIf_optionalWord _))
    · intro _ some
      apply Continues.pass (orderly.type false)
      intro _ type carries
      apply Continues.proceed (.extending (by grind) (by grind))
      intro _ outline extended
      apply Continues.decided (quiet_sees _)
      · exact .fail
      · exact .pure fun _ => extended
    · exact nothing origin

theorem extends_operators (left : Outline) (structs : Bool) (base : Precedence)
    (orderly : Orderly nested) : Yields (Extends left) (operators nested left structs base) := by
  apply yields_iterate (Extends left) (.refl left)
  intro taken outline known
  apply (extends_operatorStep structs base outline orderly).weaken
  exact fun _ _ next => known.trans next

theorem carries_operandStep (structs : Bool) (base : Precedence) (right : Outline)
    (orderly : Orderly nested) (carries : Carries taken right) :
    Yields (fun more answer => Carries (taken ++ more) (answer.getD right))
      (operandStep nested structs base right) := by
  intro before answer after done
  rcases exists_run_of_operandStep done with ⟨rfl, rfl⟩ | ⟨next, whole, ran, goesOn⟩
  · exact ⟨[], .refl _, carries.append_right⟩
  rcases orderly.operators right structs next before whole after ran with ⟨more, takes, extended⟩
  rcases goesOn with rfl | ⟨rfl, -⟩
  · exact ⟨more, takes, extended taken carries⟩
  · exact ⟨more, takes, carries.append_right⟩

theorem carries_operand (structs : Bool) (base : Precedence) (orderly : Orderly nested) :
    Yields Carries (operand nested structs base) := by
  apply Yields.of_start
  intro origin
  rw [operand_eq]
  apply Continues.pass (orderly.unary structs)
  intro _ first carries
  apply Continues.iterating Carries carries.append_left
  exact fun taken right carries => .restart (carries_operandStep structs base right orderly carries)

theorem carries_expression (structs : Bool) (orderly : Orderly nested) :
    Yields Carries (expression nested structs) := by
  apply Yields.of_start
  intro origin
  apply Continues.pass (orderly.unary structs)
  intro _ left carries
  apply Continues.finish (orderly.operators left structs .loosest)
  exact fun _ _ _ extended => extended _ carries.append_left

theorem carries_early (orderly : Orderly nested) : Yields Carries (early nested) := by
  apply Yields.of_start
  intro origin
  unfold early
  apply Continues.atStart
  apply Continues.pass (yields_outerAttributes orderly)
  intro front attributes inFront
  apply Continues.begun
  intro begins
  have attached : ∀ {taken outline}, Carries taken outline →
      Carries (front ++ taken) (outline.attach origin.position attributes) :=
    fun carries => carries.attach inFront.2 inFront.1 begins
  apply Continues.decided (quiet_sees _)
  · apply Continues.pass (carries_atom true orderly)
    intro _ first carries
    apply Continues.decided (quiet_sees _)
    · apply Continues.pass (extends_trailers first orderly)
      intro _ left extended
      apply Continues.finish (orderly.operators _ true .loosest)
      intro _ _ _ whole
      rw [List.append_assoc ([] ++ front)]
      exact whole _ (attached (carries.of_extends extended))
    · exact .pure fun _ => attached carries
  · apply Continues.pass (orderly.unary true)
    intro _ left carries
    apply Continues.finish (orderly.operators _ true .loosest)
    exact fun _ _ _ extended => extended _ (attached carries)

end ProgramGraph.Grammar
