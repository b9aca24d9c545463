import ProgramGraph.Grammar.Expression
import ProgramGraph.Proofs.Grammar.Pattern

/-!
# What expressions show

An expression shows what it takes.  What trails an operand, and what follows it as an operator,
goes on from the operand and shows it once.  A field of a struct that is given by its name alone
shows that name a second time, as the path that gives the value.
-/

namespace ProgramGraph.Grammar

open Source Outline

variable {nested : Nested}

/-! ## Parts of expressions -/

theorem reads_expressionList (faithful : Faithful nested) : Reads id [] (expressionList nested) :=
  reads_separated _ collects_id (faithful.expression true)

theorem reads_blockExpression (faithful : Faithful nested) :
    Reads ([·]) [] (blockExpression nested) := by
  apply Reads.after idle_here
  intro start origin taken blocks
  apply Continues.read (reads_block faithful)
  intro _ statements
  exact .last (.element rfl start _) (.refl _)

theorem reads_elementWithBlock (form : ExpressionForm) (start : Nat) (children : List Outline)
    (faithful : Faithful nested) :
    Reads ([·]) [children] (elementWithBlock nested form start children) := by
  intro origin taken blocks
  unfold elementWithBlock
  apply Continues.read (reads_blockWithAttributes faithful)
  rintro _ ⟨attributes, statements⟩
  apply Continues.skip (.of_quiet (quiet_spanFrom _))
  intro _ span
  apply Continues.give
  constructor <;> simp <;> grind

theorem reads_optionalExpression (look : Look) (faithful : Faithful nested) :
    Reads id [] (optionalExpression nested look) :=
  .test (idle_sees look) (.one (faithful.expression true)) .none

theorem reads_rangeUpper (structs closed : Bool) (faithful : Faithful nested) :
    Reads id [] (rangeUpper nested structs closed) := by
  unfold rangeUpper
  apply Reads.after (idle_sees _)
  intro isOpen origin taken blocks
  split
  · exact .give (.empty _)
  · exact .last (.one (faithful.operand structs .range)) (.refl _)

/-! ## What trails an operand -/

/-- Each field shows the one before it. -/
theorem rearranges_fields (start : Nat) (ends : List Nat) (operand : Outline)
    (blocks : List (List Outline)) :
    Rearranges ([operand] :: blocks)
      ([ends.foldl
        (fun field last => .element (.expression .field) ⟨start, last⟩ [] [field]) operand] ::
          blocks) := by
  induction ends generalizing operand with
  | nil => exact .refl _
  | cons last ends ih =>
      apply Rearranges.trans _ (ih _)
      constructor <;> simp

theorem reads_fractionFields (operand : Outline) :
    Reads (fun answer => [answer.1]) [[operand]] (fractionFields operand) := by
  intro origin taken blocks
  unfold fractionFields
  apply Continues.quiet quiet_get
  intro cursor
  split
  · split
    · extract_lets parts hanging
      split
      · next ends _ =>
        apply Continues.skip idle_take
        intro _ _
        apply Continues.give
        exact rearranges_fields operand.span.first ends operand blocks
      · exact .fail
    · exact .give (.refl _)
  · exact .give (.refl _)

theorem reads_afterDot (operand : Outline) (faithful : Faithful nested) :
    Reads ([·]) [[operand]] (afterDot nested operand) := by
  intro origin taken blocks
  unfold afterDot
  extract_lets start
  apply Continues.readFrom (reads_fractionFields operand) (.refl _)
  rintro _ ⟨operand, goesOn⟩
  dsimp only
  split
  · exact .give (.refl _)
  apply Continues.skip (idle_optionalWord _)
  intro _ awaits
  split
  · exact .last (.element rfl start _) (.refl _)
  apply Continues.read reads_member
  intro _ field
  cases field with
  | none => exact .last (.element rfl start _) (.forget _ _)
  | some field =>
      apply Continues.skip (idle_optionalSymbol _)
      intro _ turbofish
      apply Continues.either (fun _ => reads_angleArguments faithful) (fun _ => .none)
      intro _ arguments
      apply Continues.skip (idle_sees _)
      intro _ round
      split
      · apply Continues.read (reads_inside _ (reads_expressionList faithful))
        intro _ inputs
        apply Continues.last (.element rfl start _)
        constructor <;> simp <;> grind
      · apply Continues.last (.element rfl start _)
        constructor <;> simp <;> grind

theorem reads_trailer (operand : Outline) (faithful : Faithful nested) :
    Reads (fun answer => [answer.getD operand]) [[operand]] (trailer nested operand) := by
  intro origin taken blocks
  unfold trailer
  extract_lets start isRange
  apply Continues.skip (idle_sees _)
  intro _ round
  split
  · apply Continues.read (reads_inside _ (reads_expressionList faithful))
    intro _ inputs
    apply Continues.readFrom (Reads.element rfl start (operand :: inputs)) (.append _ _ _)
    intro _ outline
    exact .give (.refl _)
  apply Continues.skip (idle_sees _)
  intro _ dot
  split
  · apply Continues.skip (idle_symbol _)
    intro _ _
    apply Continues.readFrom (reads_afterDot operand faithful) (.refl _)
    intro _ outline
    exact .give (.refl _)
  apply Continues.skip (idle_sees _)
  intro _ square
  split
  · apply Continues.read (reads_inside _ (faithful.expression true))
    intro _ index
    apply Continues.readFrom (Reads.element rfl start [operand, index]) (.append _ _ _)
    intro _ outline
    exact .give (.refl _)
  apply Continues.skip (idle_whereAllowed _ (idle_optionalSymbol _))
  intro _ question
  split
  · apply Continues.readFrom (Reads.element rfl start [operand]) (.refl _)
    intro _ outline
    exact .give (.refl _)
  · exact .give (.refl _)

theorem reads_trailers (operand : Outline) (faithful : Faithful nested) :
    Reads ([·]) [[operand]] (trailers nested operand) :=
  reads_iterate ([·]) operand fun operand => reads_trailer operand faithful

/-! ## Atoms -/

/-- The name of a field that is also the path to its value is repeated by it. -/
theorem reads_fieldValue (faithful : Faithful nested) : Reads id [] (fieldValue nested) := by
  intro origin taken blocks
  unfold fieldValue
  apply Continues.read (reads_outerAttributes faithful)
  intro _ attributes
  apply Continues.yield yields_member (fun _ _ named => named.held)
  intro _ field named
  cases field with
  | none =>
      apply Continues.skip (idle_symbol _)
      intro _ _
      apply Continues.read (faithful.expression true)
      intro _ value
      apply Continues.give
      constructor <;> simp <;> grind
  | some field =>
      rcases named field rfl with ⟨_, span, _, rfl, _⟩
      apply Continues.skip (idle_optionalSymbol _)
      intro _ given
      split
      · apply Continues.read (faithful.expression true)
        intro _ value
        apply Continues.give
        constructor <;> simp <;> grind
      · apply Continues.give
        have path : Rearranges ([.name span] :: attributes :: blocks)
            ([.element (.expression .path) span [] [.name span]] :: attributes :: blocks) := by
          constructor <;> simp
        apply (path.trans (.repeated [] _ _)).trans (.append _ _ _)
        simp [repeats, leadingName?]

theorem reads_fieldValues (faithful : Faithful nested) : Reads id [] (fieldValues nested) := by
  intro origin taken blocks
  unfold fieldValues
  apply Continues.iterate fun state => state.1.reverse.flatten
  · rfl
  · rintro ⟨found, done⟩ origin taken blocks
    apply Continues.skip (.of_quiet quiet_atEnd)
    intro _ ended
    split
    · exact .give (.refl _)
    apply Continues.skip (idle_optionalSymbol _)
    intro _ others
    split
    · apply Continues.skip (.of_quiet quiet_atEnd)
      intro _ ended
      apply Continues.either (fun _ => .none) (fun _ => .one (faithful.expression true))
      intro _ others
      apply Continues.give
      constructor <;> simp <;> grind
    · apply Continues.read (reads_fieldValue faithful)
      intro _ parts
      apply Continues.separator quiet_atEnd
      intro _
      apply Continues.give
      constructor <;> simp <;> grind
  · rintro _ ⟨found, _⟩
    exact .give (.refl _)

theorem reads_namedExpression (structs : Bool) (faithful : Faithful nested) :
    Reads ([·]) [] (namedExpression nested structs) := by
  apply Reads.after idle_here
  intro start origin taken blocks
  apply Continues.read (moves_qualifiedPath true faithful).reads
  intro _ path
  apply Continues.skip (idle_sees _)
  intro _ exclaims
  split
  · apply Continues.skip idle_macroArguments
    intro _ _
    apply Continues.skip (.of_quiet quiet_get)
    intro _ cursor
    exact .last (.element rfl start _) (.refl _)
  apply Continues.skip (idle_sees _)
  intro _ curly
  split
  · apply Continues.read (reads_inside _ (reads_fieldValues faithful))
    intro _ fields
    exact .last (.element rfl start _) (.append _ _ _)
  · exact .last (.element rfl start _) (.refl _)

theorem reads_enclosedExpression (faithful : Faithful nested) :
    Reads ([·]) [] (enclosedExpression nested) := by
  apply Reads.after idle_here
  intro start origin taken blocks
  apply Continues.move
  · apply moves_inside (·.2)
    intro origin taken blocks
    apply Continues.skip (.of_quiet quiet_atEnd)
    intro _ ended
    split
    · exact .give (.empty _)
    apply Continues.read (faithful.expression true)
    intro _ first
    apply Continues.skip (.of_quiet quiet_atEnd)
    intro _ ended
    split
    · exact .give (.refl _)
    · apply Continues.skip (idle_symbol _)
      intro _ _
      apply Continues.read (reads_expressionList faithful)
      intro _ others
      exact .give (.append [first] others _)
  rintro _ ⟨form, elements⟩ _
  exact .last (.element rfl start elements) (.refl _)

theorem reads_arrayExpression (faithful : Faithful nested) :
    Reads ([·]) [] (arrayExpression nested) := by
  apply Reads.after idle_here
  intro start origin taken blocks
  apply Continues.move
  · apply moves_inside (·.2)
    intro origin taken blocks
    apply Continues.skip (.of_quiet quiet_atEnd)
    intro _ ended
    split
    · exact .give (.empty _)
    apply Continues.read (faithful.expression true)
    intro _ first
    apply Continues.skip (.of_quiet quiet_atEnd)
    intro _ ended
    split
    · exact .give (.refl _)
    apply Continues.skip (idle_optionalSymbol _)
    intro _ listed
    split
    · apply Continues.read (reads_expressionList faithful)
      intro _ others
      exact .give (.append [first] others _)
    · apply Continues.skip (idle_symbol _)
      intro _ _
      apply Continues.read (faithful.expression true)
      intro _ count
      exact .give (.append [first] [count] _)
  rintro _ ⟨form, elements⟩ _
  exact .last (.element rfl start elements) (.refl _)

theorem reads_closureParameter (faithful : Faithful nested) :
    Reads ([·]) [] (closureParameter nested) := by
  apply Reads.after idle_here
  intro start origin taken blocks
  apply Continues.read (reads_outerAttributes faithful)
  intro _ attributes
  exact .last (reads_typedPattern attributes start faithful) (.refl _)

theorem reads_closure (structs : Bool) (faithful : Faithful nested) :
    Reads ([·]) [] (closure nested structs) := by
  apply Reads.after idle_here
  intro start origin taken blocks
  apply Continues.read (reads_forLifetimes faithful)
  rintro _ ⟨lifetimes, _⟩
  apply Continues.skip (idle_optionalWord _)
  intro _ _
  apply Continues.skip (idle_optionalWord _)
  intro _ _
  apply Continues.skip (idle_optionalWord _)
  intro _ _
  apply Continues.skip (idle_optionalWord _)
  intro _ _
  apply Continues.skip (idle_symbol _)
  intro _ _
  apply Continues.read (reads_listed _ _ collects_id (reads_closureParameter faithful))
  intro _ inputs
  apply Continues.skip (idle_symbol _)
  intro _ _
  apply Continues.read (reads_returned true faithful)
  intro _ output
  apply Continues.either (fun _ => faithful.expression structs)
    (fun _ => reads_blockExpression faithful)
  intro _ body
  apply Continues.last (.element rfl start _)
  constructor <;> simp <;> grind

theorem reads_conditional (faithful : Faithful nested) :
    Reads ([·]) [] (conditional nested) := by
  apply Reads.after idle_here
  intro start origin taken blocks
  apply Continues.skip (idle_word _)
  intro _ _
  apply Continues.read (faithful.expression false)
  intro _ condition
  apply Continues.read (reads_block faithful)
  intro _ statements
  apply Continues.skip (idle_optionalWord _)
  intro _ given
  extract_lets rest
  have reads : ∀ taken otherwise,
      Continues origin taken (otherwise :: statements :: [condition] :: blocks) (Gives ([·]) blocks)
        (rest otherwise) := by
    intro taken otherwise
    apply Continues.last (.element rfl start _)
    constructor <;> simp <;> grind
  split
  · apply Continues.skip (idle_sees _)
    intro _ goesOn
    split
    · apply Continues.read faithful.conditional
      intro _ otherwise
      exact .pure_bind (reads _ [otherwise])
    · apply Continues.read (reads_blockExpression faithful)
      intro _ otherwise
      exact .pure_bind (reads _ [otherwise])
  · apply Continues.read .none
    exact fun _ otherwise => reads _ otherwise

theorem reads_arm (faithful : Faithful nested) : Reads id [] (arm nested) := by
  intro origin taken blocks
  unfold arm
  apply Continues.read (reads_outerAttributes faithful)
  intro _ attributes
  apply Continues.read (reads_alternatives faithful)
  intro _ pattern
  apply Continues.skip (idle_optionalWord _)
  intro _ given
  apply Continues.either (fun _ => .one (faithful.expression true)) (fun _ => .none)
  intro _ condition
  apply Continues.skip (idle_symbol _)
  intro _ _
  apply Continues.read faithful.early
  intro _ body
  apply Continues.skip (.of_quiet quiet_atEnd)
  intro _ ended
  have shown : Rearranges ([body] :: condition :: [pattern] :: attributes :: blocks)
      ((attributes ++ pattern :: (condition ++ [body])) :: blocks) := by
    constructor <;> simp <;> grind
  split
  · apply Continues.skip (idle_optionalSymbol _)
    intro _ _
    exact .give shown
  · apply Continues.skip (idle_symbol _)
    intro _ _
    exact .give shown

theorem reads_matchExpression (faithful : Faithful nested) :
    Reads ([·]) [] (matchExpression nested) := by
  apply Reads.after idle_here
  intro start origin taken blocks
  apply Continues.skip (idle_word _)
  intro _ _
  apply Continues.read (faithful.expression false)
  intro _ scrutinee
  apply Continues.move
  · apply moves_inside fun parts => [pair parts.1 parts.2.flatten]
    intro origin taken blocks
    apply Continues.read (reads_innerAttributes faithful)
    intro _ attributes
    apply Continues.read (reads_everything collects_flatten (reads_arm faithful))
    intro _ arms
    apply Continues.give
    constructor <;> simp <;> grind
  rintro _ ⟨attributes, arms⟩ _
  apply Continues.skip (.of_quiet (quiet_spanFrom _))
  intro _ span
  apply Continues.give
  constructor <;> simp <;> grind

theorem reads_loopExpression (start : Nat) (label : List Outline) (faithful : Faithful nested) :
    Reads ([·]) [label] (loopExpression nested start label) := by
  apply Reads.test (idle_optionalWord _)
  · intro origin taken blocks
    apply Continues.read (faithful.expression false)
    intro _ condition
    exact .last (reads_elementWithBlock _ start _ faithful) (.append _ _ _)
  apply Reads.test (idle_optionalWord _)
  · intro origin taken blocks
    apply Continues.read (reads_alternatives faithful)
    intro _ pattern
    apply Continues.skip (idle_word _)
    intro _ _
    apply Continues.read (faithful.expression false)
    intro _ values
    apply Continues.last (reads_elementWithBlock _ start _ faithful)
    constructor <;> simp <;> grind
  apply Reads.test (idle_optionalWord _)
  · exact reads_elementWithBlock _ start label faithful
  · exact reads_elementWithBlock _ start label faithful

theorem reads_labelled (faithful : Faithful nested) : Reads ([·]) [] (labelled nested) := by
  apply Reads.after idle_here
  intro start origin taken blocks
  apply Continues.read moves_lifetime.reads
  intro _ label
  apply Continues.skip (idle_symbol _)
  intro _ _
  exact .last (reads_loopExpression start [label] faithful) (.refl _)

theorem reads_breakOut (structs : Bool) (faithful : Faithful nested) :
    Reads ([·]) [] (breakOut nested structs) := by
  unfold breakOut
  apply Reads.after idle_here
  intro start
  apply Reads.after (idle_word _)
  intro _
  apply Reads.after idle_here
  intro place origin taken blocks
  apply Continues.skip (idle_sees _)
  intro _ labelled
  split
  · apply Continues.skip (.of_reads (faithful.expression true))
    intro _ _
    exact .failAt_bind place
  · apply Continues.read reads_optionalLifetime
    intro _ label
    apply Continues.read (reads_optionalExpression _ faithful)
    intro _ value
    exact .last (.element rfl start _) (.append _ _ _)

theorem reads_letCondition (structs : Bool) (faithful : Faithful nested) :
    Reads ([·]) [] (letCondition nested structs) := by
  apply Reads.after idle_here
  intro start
  apply Reads.after (idle_word _)
  intro _ origin taken blocks
  apply Continues.read (reads_alternatives faithful)
  intro _ pattern
  apply Continues.skip (idle_symbol _)
  intro _ _
  apply Continues.read (faithful.unary structs)
  intro _ left
  apply Continues.readFrom (faithful.operators left structs .compare) (.refl _)
  intro _ value
  exact .last (.element rfl start _) (.append [pattern] [value] _)

theorem reads_builtin : Reads ([·]) [] builtin := by
  apply Reads.after idle_here
  intro start
  apply Reads.after (idle_takeMany 2)
  intro _
  apply Reads.after (.of_reads moves_identifier.reads)
  intro _
  apply Reads.after (idle_takeWhere _ _)
  intro _
  exact .leaf rfl start

theorem reads_atom (structs : Bool) (faithful : Faithful nested) :
    Reads ([·]) [] (atom nested structs) := by
  unfold atom
  apply Reads.after idle_here
  intro start
  apply Reads.test (idle_sees _)
  · exact .after idle_literal fun _ => .leaf rfl start
  apply Reads.test (idle_sees _)
  · apply Reads.after (idle_word _)
    intro _
    apply Reads.after (idle_optionalWord _)
    intro _
    exact .enclosing rfl start (reads_block faithful)
  apply Reads.test (idle_takeIf _ _) (.enclosing rfl start (reads_block faithful))
  apply Reads.test (idle_sees _) (reads_closure structs faithful)
  apply Reads.test (idle_sees _) reads_builtin
  apply Reads.test (idle_sees _) (reads_namedExpression structs faithful)
  apply Reads.test (idle_sees _) (reads_enclosedExpression faithful)
  apply Reads.test (idle_sees _) (reads_breakOut structs faithful)
  apply Reads.test (idle_optionalWord _) (.enclosing rfl start reads_optionalLifetime)
  apply Reads.test (idle_optionalWord _)
  · exact .enclosing rfl start (reads_optionalExpression _ faithful)
  apply Reads.test (idle_optionalWord _)
  · exact .after (.of_reads (faithful.expression true)) fun _ => .leaf rfl start
  apply Reads.test (idle_sees _) (reads_arrayExpression faithful)
  apply Reads.test (idle_sees _) (reads_letCondition structs faithful)
  apply Reads.test (idle_sees _) faithful.conditional
  apply Reads.test (idle_sees _)
  · intro origin taken blocks
    exact .last (reads_loopExpression start [] faithful) (.empty _)
  apply Reads.test (idle_sees _) (reads_matchExpression faithful)
  apply Reads.test (idle_optionalWord _)
  · exact .enclosing rfl start (reads_optionalExpression _ faithful)
  apply Reads.test (idle_optionalWord _)
  · intro origin taken blocks
    exact .last (reads_elementWithBlock _ start [] faithful) (.empty _)
  apply Reads.test (idle_optionalWord _)
  · intro origin taken blocks
    exact .last (reads_elementWithBlock _ start [] faithful) (.empty _)
  apply Reads.test (idle_sees _)
  · apply Reads.after (idle_limits _)
    rintro ⟨place, closed⟩
    exact .enclosing rfl start (reads_rangeUpper structs closed faithful)
  apply Reads.test (idle_optionalWord _) (.leaf rfl start)
  exact .test (idle_sees _) (reads_labelled faithful) .fail

/-! ## Operands and operators -/

theorem reads_trailed (structs : Bool) (start : Nat) (attributes : List Outline)
    (faithful : Faithful nested) :
    Reads ([·]) [attributes] (trailed nested structs start attributes) := by
  unfold trailed
  apply Reads.after idle_here
  intro place origin taken blocks
  apply Continues.read (reads_atom structs faithful)
  intro _ first
  apply Continues.readFrom (reads_trailers first faithful) (.refl _)
  intro _ outline
  split
  · exact .last (.forget (.leaf rfl start) [[outline], attributes]) (.refl _)
  · split
    · exact .give (.keep _ _ _)
    · exact .failAt place
  · apply Continues.give
    constructor <;> simp <;> grind

theorem reads_unary (structs : Bool) (faithful : Faithful nested) :
    Reads ([·]) [] (unary nested structs) := by
  unfold unary
  apply Reads.after idle_here
  intro start origin taken blocks
  apply Continues.read (reads_outerAttributes faithful)
  intro _ attributes
  apply Continues.skip idle_here
  intro _ place
  apply Continues.skip (idle_optionalSymbol _)
  intro _ reference
  split
  · apply Continues.skip (idle_takeIf _ _)
    intro _ raw
    apply Continues.skip (idle_optionalWord _)
    intro _ mutable
    extract_lets rest
    have reads : ∀ taken done,
        Continues origin taken (attributes :: blocks) (Gives ([·]) blocks) (rest done) := by
      intro taken _
      apply Continues.read (faithful.unary structs)
      intro _ operand
      apply Continues.readFrom (Reads.element rfl place [operand]) (.refl _)
      intro _ outline
      apply Continues.give
      constructor <;> simp <;> grind
    split
    · exact .skip (idle_word _) fun _ done => reads _ done
    · exact reads _ ()
  apply Continues.skip (idle_takeIf _ _)
  intro _ marked
  split
  · apply Continues.read (faithful.unary structs)
    intro _ operand
    apply Continues.readFrom (Reads.element rfl place [operand]) (.refl _)
    intro _ outline
    apply Continues.give
    constructor <;> simp <;> grind
  · exact .last (reads_trailed structs start attributes faithful) (.refl _)

theorem reads_operatorStep (structs : Bool) (base : Precedence) (left : Outline)
    (faithful : Faithful nested) :
    Reads (fun answer => [answer.getD left]) [[left]]
      (operatorStep nested structs base left) := by
  intro origin taken blocks
  unfold operatorStep
  extract_lets start
  split
  · exact .give (.refl _)
  apply Continues.quiet quiet_get
  intro cursor
  split
  · extract_lets comparison
    split
    · exact .give (.refl _)
    split
    · exact .fail_bind
    apply Continues.skip (idle_symbol _)
    intro _ _
    apply Continues.read (faithful.operand structs _)
    intro _ right
    apply Continues.readFrom (Reads.element rfl start [left, right]) (.append _ _ _)
    intro _ outline
    exact .give (.refl _)
  · apply Continues.skip (idle_sees _)
    intro _ assigns
    split
    · apply Continues.skip (idle_symbol _)
      intro _ _
      apply Continues.read (faithful.operand structs .assign)
      intro _ right
      apply Continues.readFrom (Reads.element rfl start [left, right]) (.append _ _ _)
      intro _ outline
      exact .give (.refl _)
    apply Continues.skip (idle_sees _)
    intro _ range
    split
    · apply Continues.skip (idle_limits _)
      rintro _ ⟨place, closed⟩
      apply Continues.read (reads_rangeUpper structs closed faithful)
      intro _ upper
      apply Continues.readFrom (Reads.element rfl start (left :: upper)) (.append _ _ _)
      intro _ outline
      exact .give (.refl _)
    apply Continues.skip (idle_whereAllowed _ (idle_optionalWord _))
    intro _ cast
    split
    · apply Continues.read (faithful.type false)
      intro _ type
      apply Continues.readFrom (Reads.element rfl start [left, type]) (.append _ _ _)
      intro _ outline
      apply Continues.skip (idle_sees _)
      intro _ follows
      split
      · exact .fail
      · exact .give (.refl _)
    · exact .give (.refl _)

theorem reads_operators (left : Outline) (structs : Bool) (base : Precedence)
    (faithful : Faithful nested) :
    Reads ([·]) [[left]] (operators nested left structs base) :=
  reads_iterate ([·]) left fun left => reads_operatorStep structs base left faithful

/-- The operators that bind an operand more tightly than the one before it. -/
def operandStep (nested : Nested) (structs : Bool) (base : Precedence) (right : Outline) :
    Reader (Option Outline) := do
  let trees := (← get).rest
  let next := precedenceNext trees
  if base.rank < next.rank || next == base && base == .assign then
    let whole ← nested (.operators right structs next)
    if (← get).rest.length == trees.length then return none else return some whole
  else
    return none

theorem operand_eq (nested : Nested) (structs : Bool) (base : Precedence) :
    operand nested structs base =
      (do iterate (operandStep nested structs base) (← nested (.unary structs))) :=
  rfl

/-- Operators that take nothing leave the operand as it is. -/
theorem exists_run_of_operandStep {structs : Bool} {base : Precedence} {right : Outline}
    {before after : Cursor} {answer : Option Outline}
    (done : (operandStep nested structs base right).run before = .ok (answer, after)) :
    answer = none ∧ after = before ∨
      ∃ next whole, (nested (.operators right structs next)).run before = .ok (whole, after) ∧
        (answer = some whole ∨ answer = none ∧ after.rest.length = before.rest.length) := by
  rcases run_bind_eq_ok_iff.mp done with ⟨_, _, got, rest⟩
  cases got
  dsimp only at rest
  split at rest
  · rcases run_bind_eq_ok_iff.mp rest with ⟨whole, middle, ran, rest⟩
    rcases run_bind_eq_ok_iff.mp rest with ⟨_, _, got, rest⟩
    cases got
    split at rest
    · next same =>
      cases rest
      exact .inr ⟨_, whole, ran, .inr ⟨rfl, beq_iff_eq.mp same⟩⟩
    · cases rest
      exact .inr ⟨_, whole, ran, .inl rfl⟩
  · cases rest
    exact .inl ⟨rfl, rfl⟩

theorem reads_operandStep (structs : Bool) (base : Precedence) (right : Outline)
    (faithful : Faithful nested) :
    Reads (fun answer => [answer.getD right]) [[right]]
      (operandStep nested structs base right) := by
  intro origin taken blocks here takes held answer after done
  rcases exists_run_of_operandStep done with ⟨rfl, rfl⟩ | ⟨next, whole, ran, goesOn⟩
  · exact ⟨[], by rwa [List.append_nil], by rwa [List.append_nil]⟩
  rcases faithful.operators right structs next origin taken blocks here takes held whole after ran
    with ⟨more, takesMore, gives⟩
  rcases goesOn with rfl | ⟨rfl, same⟩
  · exact ⟨more, takesMore, gives⟩
  · have lengths := congrArg List.length (takes.rest.symm.trans takesMore.rest)
    rw [List.length_append, List.length_append, List.length_append] at lengths
    have none : more = [] := List.eq_nil_of_length_eq_zero (by omega)
    cases none
    exact ⟨[], takesMore, by rwa [List.append_nil]⟩

theorem reads_operand (structs : Bool) (base : Precedence) (faithful : Faithful nested) :
    Reads ([·]) [] (operand nested structs base) := by
  intro origin taken blocks
  rw [operand_eq]
  apply Continues.read (faithful.unary structs)
  intro _ first
  exact .last (reads_iterate ([·]) first fun right => reads_operandStep structs base right faithful)
    (.refl _)

theorem reads_expression (structs : Bool) (faithful : Faithful nested) :
    Reads ([·]) [] (expression nested structs) := by
  intro origin taken blocks
  apply Continues.read (faithful.unary structs)
  intro _ left
  exact .last (faithful.operators left structs .loosest) (.refl _)

theorem reads_early (faithful : Faithful nested) : Reads ([·]) [] (early nested) := by
  unfold early
  apply Reads.after idle_here
  intro start origin taken blocks
  apply Continues.read (reads_outerAttributes faithful)
  intro _ attributes
  apply Continues.skip (idle_sees _)
  intro _ ends
  split
  · apply Continues.read (reads_atom true faithful)
    intro _ first
    apply Continues.skip (idle_sees _)
    intro _ goesOn
    split
    · apply Continues.readFrom (reads_trailers first faithful) (.refl _)
      intro _ left
      apply Continues.last (faithful.operators (left.attach start attributes) true .loosest)
      constructor <;> simp <;> grind
    · apply Continues.give
      constructor <;> simp <;> grind
  · apply Continues.read (faithful.unary true)
    intro _ left
    apply Continues.last (faithful.operators (left.attach start attributes) true .loosest)
    constructor <;> simp <;> grind

end ProgramGraph.Grammar
