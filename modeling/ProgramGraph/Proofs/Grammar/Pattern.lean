import ProgramGraph.Grammar.Pattern
import ProgramGraph.Proofs.Grammar.Type

/-!
# What patterns show

A pattern shows what it takes.  A binding declares the first word that it takes, apart from the
words for references and changes; a field of a struct that is given by its name alone is such a
binding too, and shows the name a second time.
-/

namespace ProgramGraph.Grammar

open Source Outline

variable {nested : Nested}

/-! ## Alternatives -/

theorem reads_alternatives (faithful : Faithful nested) :
    Reads ([·]) [] (alternatives nested) := by
  intro origin taken blocks
  unfold alternatives
  apply Continues.skip (.of_quiet quiet_here)
  intro _ start
  apply Continues.skip (idle_optionalSymbol _)
  intro _ leading
  apply Continues.read faithful.pattern
  intro _ first
  apply Continues.read
  · apply reads_gather collects_id
    intro origin taken blocks
    apply Continues.skip (.of_quiet (quiet_sees _))
    intro _ goesOn
    split
    · apply Continues.skip (idle_symbol _)
      intro _ _
      apply Continues.read faithful.pattern
      intro _ pattern
      exact .give (.refl _)
    · exact .give (.empty _)
  intro _ others
  split
  · exact .last (.element rfl start _) (.append [first] others blocks)
  · exact .give (.forget _ _)

theorem reads_patternList (faithful : Faithful nested) : Reads id [] (patternList nested) :=
  reads_separated _ collects_id (reads_alternatives faithful)

/-! ## Ranges -/

theorem idle_limits (obsolete : Bool) : Idle (limits obsolete) := by
  apply (Idle.of_quiet quiet_here).bind
  intro start
  apply (idle_optionalSymbol _).bind
  intro closed
  split
  · exact .pure _
  apply (idle_whereAllowed _ (idle_optionalSymbol _)).bind
  intro old
  split
  · exact .pure _
  apply (Idle.of_quiet (quiet_sees _)).bind
  intro found
  split
  · exact (idle_symbol _).bind fun _ => .pure _
  · exact .fail

theorem reads_pathExpression (faithful : Faithful nested) :
    Reads ([·]) [] (pathExpression nested) := by
  intro origin taken blocks
  apply Continues.skip (.of_quiet quiet_here)
  intro _ start
  apply Continues.read (moves_qualifiedPath true faithful).reads
  intro _ path
  apply Continues.skip (.of_quiet (quiet_spanFrom _))
  intro _ span
  apply Continues.give
  constructor <;> simp [Path.expression]

theorem reads_constBlock (faithful : Faithful nested) :
    Reads (fun parts => [pair parts.1 parts.2]) [] (constBlock nested) := by
  intro origin taken blocks
  apply Continues.skip (idle_word _)
  intro _ _
  exact .last (reads_blockWithAttributes faithful) (.refl _)

/-- What an end of a range shows as a pattern is part of what it shows as an expression. -/
def BoundParts (taken : List TokenTree) (answer : Option RangeBound) : Prop :=
  ∀ bound ∈ answer, (Form.pattern bound.form).declares = false ∧
    Held taken [[bound.outline]] ∧ Held taken [bound.parts]

theorem yields_rangeBound (faithful : Faithful nested) :
    Yields BoundParts (rangeBound nested) := by
  apply Yields.of_start
  intro origin
  unfold rangeBound
  apply Continues.quiet (quiet_sees _)
  intro ended
  split
  · exact .pure fun _ bound impossible => by cases impossible
  apply Continues.quiet quiet_here
  intro start
  apply Continues.quiet (quiet_sees _)
  intro literal
  split
  · apply Continues.skip idle_literal
    intro _ _
    apply Continues.readFrom (Reads.leaf rfl start) (.refl _)
    intro _ outline
    apply Continues.pure
    rintro held _ ⟨⟩
    exact ⟨rfl, held, .bare _⟩
  apply Continues.quiet (quiet_sees _)
  intro path
  split
  · apply Continues.read (reads_pathExpression faithful)
    intro _ outline
    apply Continues.pure
    rintro held _ ⟨⟩
    refine ⟨rfl, held, held.rearrange ?_⟩
    constructor <;> simp <;> grind
  apply Continues.quiet (quiet_sees _)
  intro constant
  split
  · apply Continues.read (reads_constBlock faithful)
    rintro _ ⟨attributes, statements⟩
    apply Continues.quiet (quiet_spanFrom _)
    intro span
    apply Continues.pure
    rintro held _ ⟨⟩
    refine ⟨rfl, held.element fun impossible => (by cases impossible), held.rearrange ?_⟩
    constructor
    · simp
      grind
    · simp
  · exact .fail

theorem reads_rangeBound (faithful : Faithful nested) :
    Reads (fun answer => answer.elim [] fun bound => [bound.outline]) [] (rangeBound nested) := by
  apply Reads.of_yields (yields_rangeBound faithful)
  intro taken answer parts
  cases answer with
  | none => exact .bare taken
  | some bound => exact (parts bound rfl).2.1

theorem reads_rangeAfter (start : Nat) (lower : Outline) (faithful : Faithful nested) :
    Reads ([·]) [[lower]] (rangeAfter nested start lower) := by
  intro origin taken blocks
  unfold rangeAfter
  apply Continues.skip (idle_limits _)
  rintro _ ⟨place, closed⟩
  apply Continues.read (reads_rangeBound faithful)
  intro _ answer
  cases answer with
  | some upper =>
      exact .last (.element (Form.declares_pattern _) start _) (.append [lower] _ blocks)
  | none =>
      dsimp only
      split
      · exact .fail
      · exact .last (.element (Form.declares_pattern _) start _) (.forget _ _)

theorem reads_rangeTo (faithful : Faithful nested) : Reads ([·]) [] (rangeTo nested) := by
  intro origin taken blocks
  unfold rangeTo
  apply Continues.skip (.of_quiet quiet_here)
  intro _ start
  apply Continues.skip (idle_limits _)
  rintro _ ⟨place, closed⟩
  apply Continues.read (reads_rangeBound faithful)
  intro _ answer
  cases answer with
  | some upper => exact .last (.element (Form.declares_pattern _) start _) (.refl _)
  | none =>
      dsimp only
      split
      · exact .fail
      · exact .last (.leaf rfl start) (.forget _ _)

theorem reads_literalPattern (faithful : Faithful nested) :
    Reads ([·]) [] (literalPattern nested) := by
  refine Reads.of_yields ?_ fun _ _ held => held
  intro before value after done
  rcases run_bind_eq_ok_iff.mp done with ⟨start, _, started, rest⟩
  cases started
  rcases run_bind_eq_ok_iff.mp rest with ⟨answer, middle, ran, rest⟩
  rcases yields_rangeBound faithful before answer middle ran with ⟨taken, takes, parts⟩
  cases answer with
  | none => cases rest
  | some lower =>
      rcases parts lower rfl with ⟨plain, asExpression, asPattern⟩
      rcases run_bind_eq_ok_iff.mp rest with ⟨isRange, _, saw, rest⟩
      cases saw
      split at rest
      · rcases reads_rangeAfter before.position lower.outline faithful before taken [] middle takes
          asExpression value after rest with ⟨more, takesMore, held⟩
        exact ⟨taken ++ more, takesMore, held⟩
      · rcases Reads.element plain before.position lower.parts before taken [] middle takes
          asPattern value after rest with ⟨more, takesMore, held⟩
        exact ⟨taken ++ more, takesMore, held⟩

/-! ## Bindings -/

theorem isMark_of_words {refMark mutMark : List TokenTree}
    (refs : ∀ word ∈ TokenTree.words refMark, word.text = "ref")
    (muts : ∀ word ∈ TokenTree.words mutMark, word.text = "mut") :
    ∀ word ∈ TokenTree.words (refMark ++ mutMark), word.text = "ref" ∨ word.text = "mut" := by
  rw [TokenTree.words_append]
  intro word member
  rcases List.mem_append.mp member with member | member
  · exact .inl (refs word member)
  · exact .inr (muts word member)

/-- A binding declares the word after the words for references and changes. -/
theorem Held.binding {before after : List TokenTree} {blocks : List (List Outline)} {text : String}
    {span : Span} {more : List Outline}
    (held : Held (before ++ .leaf ⟨.word, text, span⟩ :: after) ((.name span :: more) :: blocks))
    (marks : ∀ word ∈ TokenTree.words before, word.text = "ref" ∨ word.text = "mut")
    (notRef : text ≠ "ref") (notMut : text ≠ "mut") :
    Held (before ++ .leaf ⟨.word, text, span⟩ :: after)
      ([.element (.pattern .binding)
        (TokenTree.extent (before ++ .leaf ⟨.word, text, span⟩ :: after)) []
        (.name span :: more)] :: blocks) :=
  held.declaring [] (by simp) (Form.declared?_binding marks notRef notMut) ⟨more, rfl⟩
    (absurd rfl)

theorem reads_bindingPattern (faithful : Faithful nested) :
    Reads ([·]) [] (bindingPattern nested) := by
  apply Reads.of_start
  intro origin
  unfold bindingPattern
  apply Continues.atStart
  apply Continues.pass (yields_optionalWord _)
  intro refMark byReference refs
  apply Continues.pass (yields_optionalWord _)
  intro mutMark mutable muts
  apply Continues.named (seesWords_identifierNext.either (seesWords_wordNext _))
  intro text span rest looked
  have notMark : text ≠ "ref" ∧ text ≠ "mut" := by
    rcases (Bool.or_eq_true _ _).mp looked with identifier | self
    · exact identifier_not_mark identifier
    · cases beq_iff_eq.mp self
      simp
  apply Continues.skip (idle_optionalSymbol _)
  intro atSign given
  apply Continues.either (fun _ => .one faithful.pattern) (fun _ => .none)
  intro inner whole
  apply Continues.spanned (by simp)
  apply Continues.pure
  intro held
  have all : [] ++ refMark ++ mutMark ++ [.leaf ⟨.word, text, span⟩] ++ atSign ++ inner =
      refMark ++ mutMark ++ .leaf ⟨.word, text, span⟩ :: (atSign ++ inner) := by
    simp
  rw [all] at held ⊢
  exact (held.rearrange (.append _ _ _)).binding (isMark_of_words refs.words muts.words)
    notMark.1 notMark.2

/-! ## Structures -/

/-- The name of a field is an identifier. -/
def FieldName (taken : List TokenTree) (answer : Option Outline) : Prop :=
  ∀ field ∈ answer, ∃ text span, taken = [.leaf ⟨.word, text, span⟩] ∧ field = .name span ∧
    text ≠ "ref" ∧ text ≠ "mut"

theorem FieldName.held {taken : List TokenTree} {answer : Option Outline}
    (named : FieldName taken answer) : Held taken [answer.elim [] ([·])] := by
  cases answer with
  | none => exact .bare taken
  | some field =>
      rcases named field rfl with ⟨text, span, rfl, rfl, _⟩
      exact .name text span

theorem yields_fieldName : Yields FieldName (do return some (← identifier)) := by
  apply Yields.of_start
  intro origin
  apply Continues.pass (yields_nameWhere seesWords_identifierNext)
  rintro _ _ ⟨text, span, rest, rfl, rfl, looked⟩
  apply Continues.pure
  rintro _ _ ⟨⟩
  exact ⟨text, span, rfl, rfl, identifier_not_mark looked⟩

theorem yields_member : Yields FieldName member := by
  apply Yields.of_start
  intro origin
  apply Continues.quiet quiet_get
  intro cursor
  split
  · exact yields_fieldName.continues []
  · split
    · split
      · apply Continues.skip idle_literal
        intro _ _
        exact .pure fun _ _ impossible => by cases impossible
      · exact .fail
    · exact .fail
  · exact .fail

theorem reads_member : Reads (fun answer => answer.elim [] ([·])) [] member :=
  .of_yields yields_member fun _ _ named => named.held

/-- The names of a field that is also a binding repeat each other. -/
theorem reads_fieldPattern (faithful : Faithful nested) :
    Reads id [] (fieldPattern nested) := by
  apply Reads.of_start
  intro origin
  unfold fieldPattern
  apply Continues.atStart
  apply Continues.pass (yields_optionalWord _)
  intro boxMark boxed isBoxed
  apply Continues.pass (yields_optionalWord _)
  intro refMark byReference refs
  apply Continues.pass (yields_optionalWord _)
  intro mutMark mutable muts
  extract_lets marked rest
  have reads : ∀ own field, FieldName own field →
      Continues origin ([] ++ boxMark ++ refMark ++ mutMark ++ own) [field.elim [] ([·])]
        (Gives id []) (rest field) := by
    intro own field named
    cases field with
    | none =>
        apply Continues.skip (idle_symbol _)
        intro _ _
        apply Continues.read (reads_alternatives faithful)
        intro _ pattern
        exact .give (.keep _ _ _)
    | some field =>
        rcases named field rfl with ⟨text, span, rfl, rfl, notRef, notMut⟩
        apply Continues.skip (idle_whereAllowed _ (idle_optionalSymbol _))
        intro after given
        split
        · apply Continues.read (reads_alternatives faithful)
          intro _ pattern
          exact .give (.append _ _ _)
        split
        · apply Continues.read (.leaf rfl origin.position)
          intro _ pattern
          exact .give (.append _ _ _)
        · next notBoxed =>
          cases Decidable.not_not.mp (mt isBoxed.iff.mpr notBoxed)
          rw [element, bind_assoc, List.append_assoc]
          apply Continues.spanned (by simp)
          apply Continues.pure_bind
          apply Continues.pure
          intro held
          apply (held.binding (isMark_of_words refs.words muts.words) notRef notMut).rearrange
          exact .repeated [] [] (by simp [repeats, leadingName?])
  split
  · exact .yield yields_fieldName (fun _ _ named => named.held) reads
  · exact .yield yields_member (fun _ _ named => named.held) reads

theorem reads_fieldPatterns (faithful : Faithful nested) :
    Reads id [] (fieldPatterns nested) := by
  intro origin taken blocks
  unfold fieldPatterns
  apply Continues.iterate fun state => state.1.reverse.flatten
  · rfl
  · rintro ⟨found, done⟩ origin taken blocks
    apply Continues.skip (.of_quiet quiet_atEnd)
    intro _ ended
    split
    · exact .give (.refl _)
    apply Continues.read (reads_outerAttributes faithful)
    intro _ attributes
    apply Continues.skip (idle_optionalSymbol _)
    intro _ others
    split
    · apply Continues.give
      constructor <;> simp <;> grind
    · apply Continues.read (reads_fieldPattern faithful)
      intro _ parts
      apply Continues.separator quiet_atEnd
      intro _
      apply Continues.give
      constructor <;> simp <;> grind
  · rintro _ ⟨found, _⟩
    exact .give (.refl _)

theorem reads_namedPattern (faithful : Faithful nested) :
    Reads ([·]) [] (namedPattern nested) := by
  intro origin taken blocks
  unfold namedPattern
  apply Continues.skip (.of_quiet quiet_here)
  intro _ start
  apply Continues.read (moves_qualifiedPath true faithful).reads
  intro _ path
  apply Continues.skip (.of_quiet (quiet_sees _))
  intro _ exclaims
  split
  · apply Continues.skip idle_macroArguments
    intro _ _
    exact .last (.element rfl start _) (.refl _)
  apply Continues.skip (.of_quiet (quiet_sees _))
  intro _ curly
  split
  · apply Continues.read (reads_inside _ (reads_fieldPatterns faithful))
    intro _ fields
    exact .last (.element rfl start _) (.append _ _ _)
  apply Continues.skip (.of_quiet (quiet_sees _))
  intro _ round
  split
  · apply Continues.read (reads_inside _ (reads_patternList faithful))
    intro _ elements
    exact .last (.element rfl start _) (.append _ _ _)
  apply Continues.skip (.of_quiet (quiet_sees _))
  intro _ range
  split
  · apply Continues.skip (.of_quiet (quiet_spanFrom _))
    intro _ span
    apply Continues.last (reads_rangeAfter start _ faithful)
    constructor <;> simp [Path.expression]
  · exact .last (.element rfl start _) (.refl _)

/-! ## The other patterns -/

theorem reads_enclosedPattern (faithful : Faithful nested) :
    Reads ([·]) [] (enclosedPattern nested) := by
  intro origin taken blocks
  unfold enclosedPattern
  apply Continues.skip (.of_quiet quiet_here)
  intro _ start
  apply Continues.move
  · apply moves_inside (·.1)
    intro origin taken blocks
    apply Continues.skip (.of_quiet quiet_atEnd)
    intro _ ended
    split
    · exact .give (.empty _)
    apply Continues.read (reads_alternatives faithful)
    intro _ first
    apply Continues.skip (.of_quiet quiet_atEnd)
    intro _ ended
    split
    · exact .give (.refl _)
    · apply Continues.skip (idle_symbol _)
      intro _ _
      apply Continues.read (reads_patternList faithful)
      intro _ others
      exact .give (.append [first] others _)
  rintro _ ⟨elements, alone⟩ _
  apply Continues.last (.element _ start elements) (.refl _)
  cases alone <;> rfl

theorem reads_sliceElement (faithful : Faithful nested) :
    Reads ([·]) [] (sliceElement nested) := by
  intro origin taken blocks
  apply Continues.read (reads_alternatives faithful)
  intro _ pattern
  split
  · exact .failAt _
  · exact .give (.refl _)

theorem reads_pattern (faithful : Faithful nested) : Reads ([·]) [] (pattern nested) := by
  unfold pattern
  apply Reads.after idle_here
  intro start
  apply Reads.test (idle_sees _) (reads_namedPattern faithful)
  apply Reads.test (idle_optionalWord _) (.leaf rfl start)
  apply Reads.test (idle_optionalWord _)
  · exact .after (.of_reads faithful.pattern) fun _ => .leaf rfl start
  apply Reads.test (idle_sees _) (reads_literalPattern faithful)
  apply Reads.test (idle_sees _) (reads_bindingPattern faithful)
  apply Reads.test (idle_optionalSymbol _)
  · apply Reads.after (idle_optionalWord _)
    intro _ origin taken blocks
    apply Continues.read faithful.pattern
    intro _ inner
    exact .last (.element rfl start _) (.refl _)
  apply Reads.test (idle_sees _) (reads_enclosedPattern faithful)
  apply Reads.test (idle_sees _)
  · intro origin taken blocks
    apply Continues.read
      (reads_inside _ (reads_separated _ collects_id (reads_sliceElement faithful)))
    intro _ elements
    exact .last (.element rfl start _) (.refl _)
  exact .test (idle_sees _) (reads_rangeTo faithful) .fail

/-- The type that a pattern is given covers the trees that it was read from. -/
theorem reads_typedPattern (attributes : List Outline) (start : Nat) (faithful : Faithful nested) :
    Reads ([·]) [attributes] (typedPattern nested attributes start) := by
  intro origin taken blocks
  unfold typedPattern
  apply Continues.read faithful.pattern
  intro _ pattern
  apply Continues.skip (idle_optionalSymbol _)
  intro _ given
  split
  · apply Continues.ascribed faithful (.refl _)
    intro _ type
    exact .last (.element rfl start _) (.refl _)
  · apply Continues.give
    constructor <;> simp <;> grind

end ProgramGraph.Grammar
