import ProgramGraph.Grammar.Path
import ProgramGraph.Proofs.Grammar.Readers

/-!
# What attributes, paths and generic parameters show

Each reader shows what it takes.  Documentation covers its attribute, from the number sign to the
closing bracket, and nothing else of the attribute is shown.
-/

namespace ProgramGraph.Grammar

open Source Outline

variable {nested : Nested}

/-! ## Attributes -/

theorem reads_plainPath : Reads id [] plainPath := by
  intro origin taken blocks
  apply Continues.skip (idle_optionalSymbol _)
  intro _ _
  apply Continues.iterate fun state => state.1.reverse
  · rfl
  · rintro ⟨names, done⟩ origin taken blocks
    apply Continues.skip (.of_quiet (quiet_sees _))
    intro _ found
    split
    · exact .give (.refl _)
    · apply Continues.read moves_anyWord.reads
      intro _ name
      apply Continues.skip (idle_optionalSymbol _)
      intro _ more
      apply Continues.give
      constructor <;> simp <;> grind
  · rintro _ ⟨names, done⟩
    dsimp only
    split
    · exact .give (.refl _)
    · exact .fail

/-- A path without arguments shows names only. -/
theorem yields_plainPath :
    Yields (fun taken names => (∃ spans : List Span, names = spans.map .name) ∧ Held taken [names])
      plainPath := by
  refine Yields.both ?_ reads_plainPath.yields
  apply Yields.of_start
  intro origin
  apply Continues.skip (idle_optionalSymbol _)
  intro _ _
  apply Continues.pass
  · apply yields_iterate fun _ state => ∃ spans : List Span, state.1.reverse = spans.map .name
    · exact ⟨[], rfl⟩
    rintro taken ⟨names, done⟩ known
    apply Yields.of_start
    intro origin
    apply Continues.skip (idle_sees _)
    intro _ found
    split
    · exact .pure fun _ => known
    apply Continues.pass (yields_nameWhere seesWords_anyWordNext)
    rintro _ _ ⟨text, span, rest, rfl, rfl, _⟩
    apply Continues.skip (idle_optionalSymbol _)
    intro _ goesOn
    apply Continues.pure
    rcases known with ⟨spans, same⟩
    exact fun _ => ⟨spans ++ [span], by simp [same]⟩
  rintro _ ⟨names, done⟩ known
  dsimp only
  split
  · exact .pure fun _ => known
  · exact .fail

theorem reads_metaValue (faithful : Faithful nested) :
    Reads (fun value => [value.1]) [] (metaValue nested) := by
  intro origin taken blocks
  unfold metaValue
  apply Continues.skip (.of_quiet (quiet_sees _))
  intro _ found
  split
  · apply Continues.skip (.of_quiet quiet_get)
    intro _ cursor
    apply Continues.skip (.of_quiet quiet_here)
    intro _ start
    apply Continues.skip idle_literal
    intro _ _
    apply Continues.skip (.of_quiet (quiet_spanFrom _))
    intro _ span
    apply Continues.give
    constructor <;> simp
  · apply Continues.skip (.of_quiet (quiet_sees _))
    intro _ found
    split
    · exact .fail
    · apply Continues.read (faithful.expression true)
      intro _ value
      exact .give (.refl _)

theorem reads_metaContent (faithful : Faithful nested) :
    Reads Meta.parts [] (metaContent nested) := by
  intro origin taken blocks
  unfold metaContent
  apply Continues.skip (.of_quiet (quiet_sees _))
  intro _ isDocumentation
  apply Continues.skip (.of_quiet (quiet_sees _))
  intro _ isUnsafe
  apply Continues.either (fun _ => .one moves_anyWord.reads) (fun _ => reads_plainPath)
  intro _ names
  apply Continues.skip (.of_quiet (quiet_sees _))
  intro _ found
  split
  · apply Continues.skip idle_take
    intro _ _
    exact .give (.refl _)
  · apply Continues.skip (idle_optionalSymbol _)
    intro _ given
    split
    · apply Continues.read (reads_metaValue faithful)
      rintro _ ⟨value, text⟩
      exact .give (.append _ _ _)
    · exact .give (.refl _)

theorem reads_oneAttribute (inner : Bool) (faithful : Faithful nested) :
    Reads id [] (oneAttribute nested inner) := by
  apply Reads.of_start
  intro origin
  unfold oneAttribute
  apply Continues.atStart
  apply Continues.pass yields_sign
  rintro _ _ ⟨joint, first, rfl⟩
  -- what stands between the number sign and the brackets does not matter
  apply Continues.optionally (idle_symbol _)
  intro between
  apply Continues.yield (yields_inside .square (reads_metaContent faithful).yields)
  · rintro _ content ⟨opening, closing, inner, more, rfl, held⟩
    exact held.in_group .square opening closing more
  rintro _ content ⟨opening, closing, inner, more, rfl, _⟩
  cases content.documentation with
  | none => exact .give (.refl _)
  | some text =>
      apply Continues.spanned (by simp)
      apply Continues.pure
      intro _
      rw [Gives, List.append_assoc, List.nil_append, List.singleton_append,
        TokenTree.extent_between]
      exact .document joint first opening closing between (inner ++ more) text

theorem reads_outerAttributes (faithful : Faithful nested) :
    Reads id [] (outerAttributes nested) := by
  intro origin taken blocks
  apply Continues.read
  · apply reads_gather collects_flatten
    intro origin taken blocks
    apply Continues.skip (.of_quiet (quiet_sees _))
    intro _ found
    split
    · apply Continues.read (reads_oneAttribute false faithful)
      intro _ parts
      exact .give (.refl _)
    · exact .give (.empty _)
  intro _ found
  exact .give (.refl _)

/-- The words of attributes stand in brackets. -/
theorem wordless_outerAttributes (faithful : Faithful nested) :
    Yields (fun taken _ => TokenTree.words taken = []) (outerAttributes nested) := by
  have one : Yields (fun taken _ => TokenTree.words taken = []) (oneAttribute nested false) := by
    apply Yields.of_start
    intro origin
    unfold oneAttribute
    apply Continues.quiet quiet_here
    intro start
    apply Continues.pass yields_sign
    rintro _ _ ⟨joint, first, rfl⟩
    apply Continues.pass (yields_inside .square (reads_metaContent faithful).yields)
    rintro _ content ⟨opening, closing, inner, more, rfl, _⟩
    split
    · apply Continues.quiet (quiet_spanFrom _)
      exact fun span => .pure fun _ => rfl
    · exact .pure fun _ => rfl
  apply Yields.of_start
  intro origin
  apply Continues.pass
  · apply yields_gather fun taken => TokenTree.words taken = []
    · rfl
    · intro front back none noneAfter
      rw [TokenTree.words_append, none, noneAfter]
      rfl
    · apply Yields.of_start
      intro origin
      apply Continues.quiet (quiet_sees _)
      intro found
      split
      · apply Continues.pass one
        exact fun more parts none => .pure fun _ => none
      · exact .pure fun _ => rfl
  · exact fun more found none => .pure fun _ => none

theorem reads_innerAttributes (faithful : Faithful nested) :
    Reads id [] (innerAttributes nested) := by
  intro origin taken blocks
  apply Continues.read
  · apply reads_gather collects_flatten
    intro origin taken blocks
    apply Continues.skip (.of_quiet (quiet_sees _))
    intro _ found
    split
    · apply Continues.read (reads_oneAttribute true faithful)
      intro _ parts
      exact .give (.refl _)
    · exact .give (.empty _)
  intro _ found
  exact .give (.refl _)

theorem reads_blockWithAttributes (faithful : Faithful nested) :
    Reads (fun parts => [pair parts.1 parts.2]) [] (blockWithAttributes nested) := by
  apply reads_inside
  intro origin taken blocks
  apply Continues.read (reads_innerAttributes faithful)
  intro _ attributes
  apply Continues.read faithful.statements
  intro _ statements
  apply Continues.give
  constructor <;> simp <;> grind

theorem reads_block (faithful : Faithful nested) : Reads id [] (block nested) :=
  reads_inside _ faithful.statements

/-! ## Arguments -/

theorem reads_constArgument (faithful : Faithful nested) :
    Reads ([·]) [] (constArgument nested) := by
  intro origin taken blocks
  unfold constArgument
  apply Continues.skip (.of_quiet quiet_here)
  intro _ start
  apply Continues.skip (.of_quiet (quiet_sees _))
  intro _ literal
  split
  · apply Continues.skip idle_literal
    intro _ _
    apply Continues.skip (.of_quiet (quiet_spanFrom _))
    intro _ span
    apply Continues.give
    constructor <;> simp
  apply Continues.skip (.of_quiet (quiet_sees _))
  intro _ named
  split
  · apply Continues.read moves_identifier.reads
    intro _ name
    apply Continues.skip (.of_quiet (quiet_spanFrom _))
    intro _ span
    apply Continues.give
    constructor <;> simp
  apply Continues.skip (.of_quiet (quiet_sees _))
  intro _ block
  split
  · apply Continues.read (reads_blockWithAttributes faithful)
    rintro _ ⟨attributes, statements⟩
    apply Continues.skip (.of_quiet (quiet_spanFrom _))
    intro _ span
    apply Continues.give
    constructor <;> simp
  · exact .fail

theorem reads_genericArgument (faithful : Faithful nested) :
    Reads id [] (genericArgument nested) := by
  intro origin taken blocks
  unfold genericArgument
  apply Continues.skip (.of_quiet (quiet_sees _))
  intro _ lifetime
  split
  · exact .last (.one moves_lifetime.reads) (.refl _)
  apply Continues.skip (.of_quiet (quiet_sees _))
  intro _ constant
  split
  · exact .last (.one (reads_constArgument faithful)) (.refl _)
  apply Continues.read (faithful.type true)
  intro _ type
  split
  · apply Continues.skip (idle_optionalSymbol _)
    intro _ equal
    split
    · apply Continues.skip (.of_quiet (quiet_sees _))
      intro _ constant
      apply Continues.either (fun _ => reads_constArgument faithful) (fun _ => faithful.type true)
      intro _ value
      apply Continues.give
      constructor <;> simp <;> grind
    · apply Continues.skip (idle_optionalSymbol _)
      intro _ colon
      split
      · apply Continues.read (reads_joined _ _ collects_parts (faithful.bound false true))
        intro _ bounds
        apply Continues.give
        constructor <;> simp <;> grind
      · exact .give (.refl _)
  · exact .give (.refl _)

theorem reads_angleArguments (faithful : Faithful nested) :
    Reads id [] (angleArguments nested) := by
  intro origin taken blocks
  apply Continues.skip (idle_symbol _)
  intro _ _
  apply Continues.read (reads_listed _ _ collects_flatten (reads_genericArgument faithful))
  intro _ arguments
  apply Continues.skip (idle_symbol _)
  intro _ _
  exact .give (.refl _)

theorem reads_returned (plus : Bool) (faithful : Faithful nested) :
    Reads id [] (returned nested plus) := by
  intro origin taken blocks
  apply Continues.skip (idle_optionalSymbol _)
  intro _ given
  split
  · exact .last (.one (faithful.type plus)) (.refl _)
  · exact .give (.empty _)

theorem reads_roundArguments (faithful : Faithful nested) :
    Reads (·.1) [] (roundArguments nested) := by
  intro origin taken blocks
  apply Continues.read (reads_inside _ (reads_separated _ collects_id (faithful.type true)))
  intro _ inputs
  apply Continues.read (reads_returned false faithful)
  intro _ output
  exact .give (.append _ _ _)

/-! ## Paths -/

theorem moves_segment (expression : Bool) (faithful : Faithful nested) :
    Moves (·.1) (segment nested expression) := by
  apply Moves.of_start
  intro origin
  unfold segment
  apply Continues.skip (.of_quiet (quiet_sees _))
  intro _ place
  split
  · apply Continues.move moves_anyWord
    intro _ name some
    exact .moved (by simp [some]) (.give (.refl _))
  apply Continues.skip (.of_quiet (quiet_sees _))
  intro _ self
  extract_lets angle turbofish rest
  have reads : ∀ taken name, taken ≠ [] → Continues origin taken [[name]]
      (fun taken value => taken ≠ [] ∧ Gives (·.1) [] taken value) (rest name) := by
    intro taken name some
    apply Continues.moved some
    apply Continues.skip (.of_quiet (quiet_sees _))
    intro _ opened
    apply Continues.skip (.of_quiet (quiet_sees _))
    intro _ marked
    split
    · apply Continues.skip (idle_optionalSymbol _)
      intro _ _
      apply Continues.read (reads_angleArguments faithful)
      intro _ arguments
      exact .give (.append _ _ _)
    · exact .give (.refl _)
  split
  · apply Continues.move moves_anyWord
    intro _ name some
    exact reads _ name (by simp [some])
  · apply Continues.move moves_identifier
    intro _ name some
    exact reads _ name (by simp [some])

theorem reads_restOfPath (expression : Bool) (path : Path) (faithful : Faithful nested) :
    Reads Path.parts [path.parts] (restOfPath nested expression path) := by
  apply reads_iterate
  intro path origin taken blocks
  apply Continues.skip (.of_quiet (quiet_sees _))
  intro _ goesOn
  split
  · apply Continues.skip (idle_symbol _)
    intro _ _
    apply Continues.read (moves_segment expression faithful).reads
    rintro _ ⟨parts, arguments⟩
    exact .give (.append _ _ _)
  · exact .give (.refl _)

theorem moves_path (expression : Bool) (faithful : Faithful nested) :
    Moves Path.parts (path nested expression) := by
  apply Moves.of_start
  intro origin
  apply Continues.skip (idle_optionalSymbol _)
  intro _ rooted
  apply Continues.move (moves_segment expression faithful)
  rintro _ ⟨parts, arguments⟩ some
  apply Continues.moved (by simp [some])
  exact .last (reads_restOfPath expression _ faithful) (.refl _)

theorem moves_qualifiedPath (expression : Bool) (faithful : Faithful nested) :
    Moves Path.parts (qualifiedPath nested expression) := by
  apply Moves.of_start
  intro origin
  unfold qualifiedPath
  apply Continues.pass (takesIf_optionalSymbol rfl)
  intro _ qualified some
  split
  · next qualified =>
    apply Continues.moved (by simp [some.mp qualified])
    apply Continues.read (faithful.type true)
    intro _ type
    apply Continues.skip (idle_optionalWord _)
    intro _ given
    have path : Reads id [] (do return (← path nested false).parts) :=
      .map (moves_path false faithful).reads
    apply Continues.either (fun _ => path) (fun _ => .none)
    intro _ trait
    apply Continues.skip (idle_symbol _)
    intro _ _
    apply Continues.skip (idle_symbol _)
    intro _ _
    apply Continues.read (moves_segment expression faithful).reads
    rintro _ ⟨parts, arguments⟩
    apply Continues.last
    · apply reads_iterate Path.parts
      intro path origin taken blocks
      apply Continues.skip (idle_optionalSymbol _)
      intro _ goesOn
      split
      · apply Continues.read (moves_segment expression faithful).reads
        rintro _ ⟨parts, arguments⟩
        exact .give (.append _ _ _)
      · exact .give (.refl _)
    · constructor <;> simp <;> grind
  · exact .lastMove (moves_path expression faithful)

theorem moves_typePath (faithful : Faithful nested) : Moves Path.parts (typePath nested) := by
  apply Moves.of_start
  intro origin
  apply Continues.move (moves_qualifiedPath false faithful)
  intro _ start some
  apply Continues.moved (by simp [some])
  apply Continues.readFrom
  · apply reads_iterate (fun state => state.1.parts)
    rintro ⟨path, done⟩ origin taken blocks
    apply Continues.skip (.of_quiet (quiet_sees _))
    intro _ found
    dsimp only
    split
    · exact .give (.refl _)
    · apply Continues.skip (idle_optionalSymbol _)
      intro _ _
      apply Continues.read (reads_roundArguments faithful)
      rintro _ ⟨parts, enclosed⟩
      dsimp only
      split
      · apply Continues.readFrom (reads_restOfPath false _ faithful)
        · exact .append _ _ _
        intro _ whole
        exact .give (.refl _)
      · exact .give (.append _ _ _)
  · exact .refl _
  rintro _ ⟨whole, _⟩
  exact .give (.refl _)

/-! ## Generic parameters -/

theorem reads_bounds (stop : Look) (faithful : Faithful nested) :
    Reads id [] (bounds nested stop) :=
  .map (reads_joined _ _ collects_parts (faithful.bound false true))

theorem reads_optionalBounds (stop : Look) (faithful : Faithful nested) :
    Reads id [] (optionalBounds nested stop) := by
  intro origin taken blocks
  apply Continues.skip (idle_optionalSymbol _)
  intro _ given
  split
  · exact .last (reads_bounds stop faithful) (.refl _)
  · exact .give (.empty _)

theorem reads_lifetimeBounds (stop : Look) : Reads id [] (lifetimeBounds stop) := by
  intro origin taken blocks
  apply Continues.skip (idle_optionalSymbol _)
  intro _ given
  split
  · exact .last (reads_joined _ _ collects_id moves_lifetime.reads) (.refl _)
  · exact .give (.empty _)

theorem reads_genericParameter (blank : Bool) (faithful : Faithful nested) :
    Reads id [] (genericParameter nested blank) := by
  intro origin taken blocks
  unfold genericParameter
  apply Continues.read (reads_outerAttributes faithful)
  intro _ attributes
  apply Continues.skip (.of_quiet (quiet_sees _))
  intro _ lifetime
  split
  · apply Continues.read moves_lifetime.reads
    intro _ name
    apply Continues.read (reads_lifetimeBounds _)
    intro _ bounds
    apply Continues.give
    constructor <;> simp <;> grind
  apply Continues.skip (.of_quiet (quiet_sees _))
  intro _ named
  split
  · apply Continues.read moves_identifier.reads
    intro _ name
    apply Continues.read (reads_optionalBounds _ faithful)
    intro _ bounds
    apply Continues.skip (idle_optionalSymbol _)
    intro _ given
    apply Continues.either (fun _ => .one (faithful.type true)) (fun _ => .none)
    intro _ default
    apply Continues.give
    constructor <;> simp <;> grind
  apply Continues.skip (idle_optionalWord _)
  intro _ constant
  split
  · apply Continues.read moves_identifier.reads
    intro _ name
    apply Continues.skip (idle_symbol _)
    intro _ _
    apply Continues.read (faithful.type true)
    intro _ type
    apply Continues.skip (idle_optionalSymbol _)
    intro _ given
    apply Continues.either (fun _ => .one (reads_constArgument faithful)) (fun _ => .none)
    intro _ default
    apply Continues.give
    constructor <;> simp <;> grind
  apply Continues.skip (.of_quiet (quiet_sees _))
  intro _ blank
  split
  · apply Continues.read moves_anyWord.reads
    intro _ name
    exact .give (.append _ _ _)
  · exact .fail

/-- Nothing is taken if no parameters are given. -/
theorem yields_forLifetimes (faithful : Faithful nested) :
    Yields (fun taken answer => (answer.2 = false → taken = []) ∧ Held taken [answer.1])
      (forLifetimes nested) := by
  apply Yields.of_start
  intro origin
  unfold forLifetimes
  apply Continues.pass (yields_optionalWord _)
  intro _ given word
  have some := word.iff
  split
  · apply Continues.skip (idle_symbol _)
    intro _ _
    apply Continues.read (reads_listed _ _ collects_flatten (reads_genericParameter false faithful))
    intro _ parameters
    apply Continues.skip (idle_symbol _)
    intro _ _
    exact .pure fun held => ⟨fun impossible => (by cases impossible), held⟩
  · next none =>
    apply Continues.pure
    intro held
    refine ⟨fun _ => ?_, .bare _⟩
    simpa [none] using some

theorem reads_forLifetimes (faithful : Faithful nested) :
    Reads (·.1) [] (forLifetimes nested) :=
  .of_yields (yields_forLifetimes faithful) fun _ _ known => known.2

theorem reads_genericParameters (faithful : Faithful nested) :
    Reads (·.1) [] (genericParameters nested) := by
  intro origin taken blocks
  apply Continues.skip (idle_optionalSymbol _)
  intro _ given
  split
  · apply Continues.read (reads_listed _ _ collects_flatten (reads_genericParameter true faithful))
    intro _ parameters
    apply Continues.skip (idle_symbol _)
    intro _ _
    exact .give (.refl _)
  · exact .give (.empty _)

theorem reads_condition (faithful : Faithful nested) : Reads id [] (condition nested) := by
  intro origin taken blocks
  unfold condition
  apply Continues.skip (.of_quiet (quiet_sees _))
  intro _ lifetime
  split
  · apply Continues.read moves_lifetime.reads
    intro _ name
    apply Continues.read (reads_lifetimeBounds _)
    intro _ bounds
    exact .give (.append _ _ _)
  · apply Continues.read (reads_forLifetimes faithful)
    rintro _ ⟨lifetimes, _⟩
    apply Continues.read (faithful.type true)
    intro _ type
    apply Continues.skip (idle_symbol _)
    intro _ _
    apply Continues.read (reads_bounds _ faithful)
    intro _ bounds
    apply Continues.give
    constructor <;> simp <;> grind

theorem reads_conditions (faithful : Faithful nested) : Reads (·.1) [] (conditions nested) := by
  intro origin taken blocks
  apply Continues.skip (idle_optionalWord _)
  intro _ given
  split
  · apply Continues.skip (.of_quiet (quiet_sees _))
    intro _ generic
    split
    · exact .fail
    · apply Continues.read (reads_joined _ _ collects_flatten (reads_condition faithful))
      intro _ found
      exact .give (.refl _)
  · exact .give (.empty _)

/-! ## Bounds -/

theorem moves_captures : Moves id captures := by
  apply Moves.of_start
  intro origin
  apply Continues.pass (yields_word "use")
  rintro _ _ ⟨span, rfl⟩
  apply Continues.moved (by simp)
  apply Continues.skip (idle_symbol _)
  intro _ _
  apply Continues.read
  · apply reads_listed _ _ collects_id
    intro origin taken blocks
    apply Continues.skip (.of_quiet (quiet_sees _))
    intro _ lifetime
    split
    · exact .last moves_lifetime.reads (.refl _)
    · exact .last (moves_nameWhere (seesWords_identifierNext.either (seesWords_wordNext _))).reads
        (.refl _)
  intro _ captured
  apply Continues.skip (idle_symbol _)
  intro _ _
  exact .give (.refl _)

theorem moves_traitBound (constant : Bool) (faithful : Faithful nested) :
    Moves Bound.parts (traitBound nested constant) := by
  apply Moves.of_start
  intro origin
  unfold traitBound
  apply Continues.read (reads_forLifetimes faithful)
  rintro _ ⟨lifetimes, bound⟩
  apply Continues.skip (.of_quiet quiet_here)
  intro _ start
  apply Continues.skip (.of_quiet (quiet_sees _))
  intro _ enclosed
  extract_lets rest
  have moves : ∀ taken isConstant,
      Continues origin taken [lifetimes]
        (fun taken value => taken ≠ [] ∧ Gives Bound.parts [] taken value) (rest isConstant) := by
    intro taken isConstant
    dsimp only [rest]
    split
    · exact .failAt_bind start
    apply Continues.skip (idle_optionalSymbol _)
    intro _ maybe
    -- those that follow the mark take the place of those before it
    have kept : Reads (·.1) [lifetimes] (pure (lifetimes, bound) : Reader (List Outline × Bool)) :=
      fun _ _ _ => .give (.refl _)
    apply Continues.eitherFrom (fun _ => (reads_forLifetimes faithful).forget [lifetimes])
      (fun _ => kept) (.refl [lifetimes])
    rintro _ ⟨lifetimes, _⟩
    apply Continues.move (moves_path false faithful)
    intro _ path some
    apply Continues.moved (by simp [some])
    have finish : ∀ taken arguments,
        Continues origin taken [arguments, path.parts, lifetimes] (Gives Bound.parts [])
          (if isConstant then return ⟨.verbatim, []⟩
            else return ⟨.trait, lifetimes ++ path.parts ++ arguments⟩) := by
      intro taken arguments
      split
      · apply Continues.give
        constructor <;> simp
      · apply Continues.give
        constructor <;> simp <;> grind
    apply Continues.skip (.of_quiet (quiet_sees _))
    intro _ round
    split
    · apply Continues.skip (idle_optionalSymbol _)
      intro _ _
      apply Continues.read (reads_roundArguments faithful)
      intro _ arguments
      exact .pure_bind (finish _ arguments.1)
    · apply Continues.read .none
      exact fun _ arguments => finish _ arguments
  split
  · apply Continues.skip (.of_reads (reads_inside _ (idle_word _).reads))
    intro _ _
    apply Continues.skip (.pure true)
    intro _ isConstant
    exact moves _ isConstant
  · apply Continues.skip (idle_optionalWord _)
    intro _ isConstant
    exact moves _ isConstant

theorem moves_bound (capture constant : Bool) (faithful : Faithful nested) :
    Moves Bound.parts (bound nested capture constant) := by
  apply Moves.of_start
  intro origin
  unfold bound
  apply Continues.skip (.of_quiet (quiet_sees _))
  intro _ lifetime
  split
  · apply Continues.move moves_lifetime
    intro _ name some
    exact .moved (by simp [some]) (.give (.refl _))
  apply Continues.skip (.of_quiet (quiet_sees _))
  intro _ captures
  split
  · apply Continues.skip (.of_quiet quiet_here)
    intro _ start
    apply Continues.move moves_captures
    intro _ captured some
    split
    · exact .moved (by simp [some]) (.give (.refl _))
    · exact .failAt start
  apply Continues.skip (.of_quiet (quiet_sees _))
  intro _ enclosed
  split
  · exact .lastMove (moves_inside _ _ (moves_traitBound constant faithful).reads)
  · exact .lastMove (moves_traitBound constant faithful)

/-- There is a first bound, so something is taken. -/
theorem moves_boundList (plus capture constant : Bool) (faithful : Faithful nested) :
    Moves (fun bounds => (bounds.map Bound.parts).flatten)
      (boundList nested plus capture constant) := by
  apply Moves.of_start
  intro origin
  unfold boundList
  apply Continues.move
  · apply moves_iterate (fun state => (state.1.reverse.map Bound.parts).flatten)
    · apply Moves.of_start
      intro origin
      apply Continues.move (faithful.moves capture constant)
      intro _ bound some
      apply Continues.moved (by simp [some])
      apply Continues.skip (idle_whereAllowed plus (idle_optionalSymbol _))
      intro _ more
      split
      · apply Continues.skip (.of_quiet (quiet_sees _))
        intro _ goesOn
        apply Continues.give
        constructor <;> simp
      · apply Continues.give
        constructor <;> simp
    · rintro ⟨found, done⟩ origin taken blocks
      dsimp only
      split
      · exact .give (.refl _)
      apply Continues.read (faithful.bound capture constant)
      intro _ bound
      apply Continues.skip (idle_whereAllowed plus (idle_optionalSymbol _))
      intro _ more
      split
      · apply Continues.skip (.of_quiet (quiet_sees _))
        intro _ goesOn
        apply Continues.give
        constructor <;> simp <;> grind
      · apply Continues.give
        constructor <;> simp <;> grind
  rintro _ ⟨found, _⟩ some
  exact .moved (by simpa using some) (.give (.refl _))

end ProgramGraph.Grammar
