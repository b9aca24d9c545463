import ProgramGraph.Grammar.Path
import ProgramGraph.Proofs.Grammar.Nesting.Readers
import ProgramGraph.Proofs.Grammar.Path

/-!
# What attributes, paths and generic parameters enclose

Each reader shows what fits into what it takes.  Attributes end with their brackets, so that what
they are about begins behind them.
-/

namespace ProgramGraph.Grammar

open Source Outline

variable {nested : Nested}

/-! ## Attributes -/

theorem nests_plainPath : Nests id plainPath := by
  apply Yields.of_start
  intro origin
  apply Continues.skip (idle_optionalSymbol _)
  intro _ _
  apply Continues.proceed
  · apply Continues.iterating fun taken state => Encloses taken state.1.reverse
    · exact encloses_nil.mpr trivial
    rintro taken ⟨names, done⟩ known
    apply Continues.quiet (quiet_sees _)
    intro found
    split
    · exact .pure fun _ => known
    apply Continues.pass nests_anyWord
    intro _ name fit
    apply Continues.skip (idle_optionalSymbol _)
    intro _ goesOn
    exact .pure fun _ => by grind
  rintro _ ⟨names, done⟩ fit
  dsimp only
  split
  · exact .pure fun _ => fit
  · exact .fail

theorem nests_metaValue (orderly : Orderly nested) :
    Nests (fun value => [value.1]) (metaValue nested) := by
  apply Yields.of_start
  intro origin
  unfold metaValue
  apply Continues.decided (quiet_sees _)
  · apply Continues.quiet quiet_get
    intro cursor
    apply Continues.atStart
    apply Continues.pass takesSome_literal
    intro taken _ some
    apply Continues.spanned (by simpa using some)
    exact .pure fun _ => (carries_element (by simpa using some) rfl (encloses_nil.mpr trivial)
      (encloses_nil.mpr trivial)).encloses
  apply Continues.decided (quiet_sees _)
  · exact .fail
  · apply Continues.pass (orderly.expression true)
    exact fun _ _ carries => .pure fun _ => carries.encloses

theorem nests_metaContent (orderly : Orderly nested) : Nests Meta.parts (metaContent nested) := by
  apply Yields.of_start
  intro origin
  unfold metaContent
  apply Continues.quiet (quiet_sees _)
  intro isDocumentation
  apply Continues.quiet (quiet_sees _)
  intro isUnsafe
  apply Continues.passEither (fun _ => Nests.one nests_anyWord) (fun _ => nests_plainPath)
  intro _ names fit
  apply Continues.quiet (quiet_sees _)
  intro found
  split
  · apply Continues.skip idle_take
    exact fun _ _ => .pure fun _ => by grind
  · apply Continues.skip (idle_optionalSymbol _)
    intro _ given
    split
    · apply Continues.pass (nests_metaValue orderly)
      rintro _ ⟨value, text⟩ valueFit
      exact .pure fun _ => by grind
    · exact .pure fun _ => by grind

/-- An attribute ends with its brackets. -/
theorem nests_oneAttribute (inner : Bool) (orderly : Orderly nested) :
    Yields (fun taken outlines => EndsWithGroup taken ∧ Encloses taken outlines)
      (oneAttribute nested inner) := by
  apply Yields.of_start
  intro origin
  unfold oneAttribute
  apply Continues.atStart
  apply Continues.skip (idle_symbol _)
  intro sign _
  apply Continues.optionally (idle_symbol _)
  intro between
  apply Continues.pass (yields_inside .square (nests_metaContent orderly))
  rintro _ content ⟨opening, closing, inner, more, rfl, fit⟩
  have ends : EndsWithGroup (sign ++ between ++
      [.group (some .square) opening closing (inner ++ more)]) := ⟨sign ++ between, _, rfl, rfl⟩
  cases content.documentation with
  | none => exact .pure fun _ => ⟨ends, (fit.in_group _ _ _ _).append_left⟩
  | some text =>
      apply Continues.spanned (by simp)
      exact .pure fun _ => ⟨ends, encloses_document (by simp) text⟩

/-- Attributes in front of something. -/
def InFront (taken : List TokenTree) (outlines : List Outline) : Prop :=
  (taken = [] ∨ EndsWithGroup taken) ∧ Encloses taken outlines

theorem yields_outerAttributes (orderly : Orderly nested) :
    Yields InFront (outerAttributes nested) := by
  apply Yields.of_start
  intro origin
  apply Continues.pass
  · apply Yields.both
    · apply yields_gather fun taken => taken = [] ∨ EndsWithGroup taken
      · exact .inl rfl
      · rintro front back frontEnds (rfl | ⟨before, group, rfl, isGroup⟩)
        · rwa [List.append_nil]
        · exact .inr ⟨front ++ before, group, (List.append_assoc _ _ _).symm, isGroup⟩
      · apply Yields.of_start
        intro origin
        apply Continues.quiet (quiet_sees _)
        intro found
        split
        · apply Continues.pass (nests_oneAttribute false orderly)
          exact fun _ _ known => .pure fun _ => .inr known.1
        · exact .pure fun _ => .inl rfl
    · apply nests_gather collects_flatten
      apply Yields.of_start
      intro origin
      apply Continues.quiet (quiet_sees _)
      intro found
      split
      · apply Continues.pass (nests_oneAttribute false orderly)
        exact fun _ _ known => .pure fun _ => known.2
      · exact .pure fun _ => encloses_nil.mpr trivial
  · exact fun _ _ known => .pure fun _ => known

theorem nests_outerAttributes (orderly : Orderly nested) : Nests id (outerAttributes nested) :=
  (yields_outerAttributes orderly).weaken fun _ _ known => known.2

theorem nests_innerAttributes (orderly : Orderly nested) : Nests id (innerAttributes nested) := by
  apply Yields.of_start
  intro origin
  apply Continues.pass
  · apply nests_gather collects_flatten
    apply Yields.of_start
    intro origin
    apply Continues.quiet (quiet_sees _)
    intro found
    split
    · apply Continues.pass (nests_oneAttribute true orderly)
      exact fun _ _ known => .pure fun _ => known.2
    · exact .pure fun _ => encloses_nil.mpr trivial
  · exact fun _ _ fit => .pure fun _ => fit

theorem nests_blockWithAttributes (orderly : Orderly nested) :
    NestsSome (fun parts => parts.1 ++ parts.2) (blockWithAttributes nested) := by
  apply nests_inside
  apply Yields.of_start
  intro origin
  apply Continues.pass (nests_innerAttributes orderly)
  intro _ attributes attributesFit
  apply Continues.pass orderly.statements
  exact fun _ statements fit => .pure fun _ => by grind

theorem nests_block (orderly : Orderly nested) : NestsSome id (block nested) :=
  nests_inside _ _ orderly.statements

/-! ## Arguments -/

theorem carries_constArgument (orderly : Orderly nested) :
    Yields Carries (constArgument nested) := by
  apply Yields.of_start
  intro origin
  unfold constArgument
  apply Continues.atStart
  apply Continues.decided (quiet_sees _)
  · apply Continues.pass takesSome_literal
    intro _ _ some
    apply Continues.spanned (by simpa using some)
    exact .pure fun _ => carries_element (by simpa using some) rfl (by simp) (by simp)
  apply Continues.decided (quiet_sees _)
  · apply Continues.pass nests_identifier
    intro _ name fit
    apply Continues.spanned (by simpa using fit.ne_nil)
    exact .pure fun _ => carries_element (by simpa using fit.ne_nil) rfl (by simp) (by grind)
  apply Continues.decided (quiet_sees _)
  · apply Continues.pass (nests_blockWithAttributes orderly)
    rintro _ ⟨attributes, statements⟩ ⟨some, fit⟩
    apply Continues.spanned (by simpa using some)
    exact .pure fun _ => carries_element (by simpa using some) rfl (by grind) (by grind)
  · exact .fail

theorem nests_genericArgument (orderly : Orderly nested) : Nests id (genericArgument nested) := by
  apply Yields.of_start
  intro origin
  unfold genericArgument
  apply Continues.decided (quiet_sees _)
  · exact .restart (Nests.one nests_lifetime)
  apply Continues.quiet (quiet_sees _)
  intro constant
  split
  · exact .restart (Nests.one (nests_of_carries (carries_constArgument orderly)))
  apply Continues.pass (orderly.type true)
  intro _ type carries
  split
  · next known =>
    have fit : Encloses _ type.children := carries.encloses.children (by simp [known])
    apply Continues.skip (idle_optionalSymbol _)
    intro _ equal
    split
    · apply Continues.quiet (quiet_sees _)
      intro constant
      apply Continues.passEither (fun _ => carries_constArgument orderly)
        (fun _ => orderly.type true)
      exact fun _ value valueCarries => .pure fun _ => by grind
    · apply Continues.skip (idle_optionalSymbol _)
      intro _ colon
      split
      · apply Continues.pass (nests_joined _ _ collects_parts (orderly.bound false true).nests)
        exact fun _ bounds boundsFit => .pure fun _ => by grind
      · exact .pure fun _ => by grind
  · exact .pure fun _ => by grind

theorem nests_angleArguments (orderly : Orderly nested) : Nests id (angleArguments nested) := by
  apply Yields.of_start
  intro origin
  apply Continues.skip (idle_symbol _)
  intro _ _
  apply Continues.pass (nests_listed _ _ collects_flatten (nests_genericArgument orderly))
  intro _ arguments fit
  apply Continues.skip (idle_symbol _)
  exact fun _ _ => .pure fun _ => by grind

theorem nests_returned (plus : Bool) (orderly : Orderly nested) :
    Nests id (returned nested plus) := by
  apply Yields.of_start
  intro origin
  apply Continues.skip (idle_optionalSymbol _)
  intro _ given
  split
  · apply Continues.finish (Nests.one (orderly.types plus))
    exact fun _ _ _ fit => by grind
  · exact .pure fun _ => by grind

theorem nests_roundArguments (orderly : Orderly nested) :
    Nests (·.1) (roundArguments nested) := by
  apply Yields.of_start
  intro origin
  apply Continues.pass (nests_inside _ _ (nests_separated _ collects_id (orderly.types true)))
  intro _ inputs fit
  apply Continues.pass (nests_returned false orderly)
  exact fun _ output outputFit => .pure fun _ => by grind

/-! ## Paths -/

theorem nests_segment (expression : Bool) (orderly : Orderly nested) :
    NestsSome (·.1) (segment nested expression) := by
  apply Yields.of_start
  intro origin
  unfold segment
  apply Continues.quiet (quiet_sees _)
  intro place
  split
  · apply Continues.pass nests_anyWord
    exact fun _ name fit => .pure fun _ => by grind
  apply Continues.quiet (quiet_sees _)
  intro self
  apply Continues.passEither (fun _ => nests_anyWord) (fun _ => nests_identifier)
  intro _ name fit
  extract_lets angle turbofish
  apply Continues.quiet (quiet_sees _)
  intro opened
  apply Continues.quiet (quiet_sees _)
  intro marked
  split
  · apply Continues.skip (idle_optionalSymbol _)
    intro _ _
    apply Continues.pass (nests_angleArguments orderly)
    exact fun _ arguments argumentsFit => .pure fun _ => by grind
  · exact .pure fun _ => by grind

theorem continues_restOfPath {origin : Cursor} {taken : List TokenTree} (expression : Bool)
    (path : Path) (orderly : Orderly nested) (known : Encloses taken path.parts) :
    Continues origin taken [] (fun all whole => Encloses all whole.parts)
      (restOfPath nested expression path) := by
  apply Continues.iterating (fun taken (path : Path) => Encloses taken path.parts) known
  intro taken path known
  apply Continues.quiet (quiet_sees _)
  intro goesOn
  split
  · apply Continues.skip (idle_symbol _)
    intro _ _
    apply Continues.pass (nests_segment expression orderly)
    rintro _ ⟨parts, arguments⟩ ⟨_, fit⟩
    exact .pure fun _ => by grind
  · exact .pure fun _ => known

theorem nests_path (expression : Bool) (orderly : Orderly nested) :
    NestsSome Path.parts (path nested expression) := by
  apply Yields.of_start
  intro origin
  apply Continues.skip (idle_optionalSymbol _)
  intro _ rooted
  apply Continues.pass (nests_segment expression orderly)
  rintro _ ⟨parts, arguments⟩ ⟨some, fit⟩
  apply Continues.moved (by simp [some])
  exact continues_restOfPath expression _ orderly fit.append_left

theorem nests_qualifiedPath (expression : Bool) (orderly : Orderly nested) :
    NestsSome Path.parts (qualifiedPath nested expression) := by
  apply Yields.of_start
  intro origin
  unfold qualifiedPath
  apply Continues.tried (takesIf_optionalSymbol rfl)
  · intro _ some
    apply Continues.moved (by simp [some])
    apply Continues.pass (orderly.types true)
    intro _ type typeFit
    apply Continues.skip (idle_optionalWord _)
    intro _ given
    have path : Nests id (do return (← path nested false).parts) :=
      .map (nests_path false orderly).nests
    apply Continues.passEither (fun _ => path) (fun _ => Nests.none)
    intro _ trait traitFit
    apply Continues.skip (idle_symbol _)
    intro _ _
    apply Continues.skip (idle_symbol _)
    intro _ _
    apply Continues.pass (nests_segment expression orderly)
    rintro _ ⟨parts, arguments⟩ ⟨_, fit⟩
    apply Continues.iterating (fun taken (path : Path) => Encloses taken path.parts)
    · grind
    intro taken path known
    apply Continues.skip (idle_optionalSymbol _)
    intro _ goesOn
    split
    · apply Continues.pass (nests_segment expression orderly)
      rintro _ ⟨parts, arguments⟩ ⟨_, fit⟩
      exact .pure fun _ => by grind
    · exact .pure fun _ => known.append_right
  · exact .restart (nests_path expression orderly)

theorem nests_typePath (orderly : Orderly nested) : NestsSome Path.parts (typePath nested) := by
  apply Yields.of_start
  intro origin
  apply Continues.pass (nests_qualifiedPath false orderly)
  rintro _ start ⟨some, fit⟩
  apply Continues.moved (by simp [some])
  apply Continues.proceed
  · apply Continues.iterating (fun taken state => Encloses taken state.1.parts) fit.append_left
    rintro taken ⟨path, done⟩ known
    apply Continues.quiet (quiet_sees _)
    intro found
    dsimp only
    split
    · exact .pure fun _ => known
    · apply Continues.skip (idle_optionalSymbol _)
      intro _ _
      apply Continues.pass (nests_roundArguments orderly)
      rintro _ ⟨parts, enclosed⟩ partsFit
      dsimp only
      split
      · apply Continues.proceed (continues_restOfPath false _ orderly (by grind))
        exact fun _ _ wholeFit => .pure fun _ => wholeFit
      · exact .pure fun _ => by grind
  · rintro _ ⟨whole, _⟩ wholeFit
    exact .pure fun _ => wholeFit

/-! ## Generic parameters -/

theorem nests_bounds (stop : Look) (orderly : Orderly nested) : Nests id (bounds nested stop) :=
  .map (nests_joined _ _ collects_parts (orderly.bound false true).nests)

theorem nests_optionalBounds (stop : Look) (orderly : Orderly nested) :
    Nests id (optionalBounds nested stop) := by
  apply Yields.of_start
  intro origin
  apply Continues.skip (idle_optionalSymbol _)
  intro _ given
  split
  · apply Continues.finish (nests_bounds stop orderly)
    exact fun _ _ _ fit => fit.append_left
  · exact .pure fun _ => by grind

theorem nests_lifetimeBounds (stop : Look) : Nests id (lifetimeBounds stop) := by
  apply Yields.of_start
  intro origin
  apply Continues.skip (idle_optionalSymbol _)
  intro _ given
  split
  · apply Continues.finish (nests_joined _ _ collects_id nests_lifetime)
    exact fun _ _ _ fit => fit.append_left
  · exact .pure fun _ => by grind

theorem nests_genericParameter (blank : Bool) (orderly : Orderly nested) :
    Nests id (genericParameter nested blank) := by
  apply Yields.of_start
  intro origin
  unfold genericParameter
  apply Continues.pass (nests_outerAttributes orderly)
  intro _ attributes attributesFit
  apply Continues.decided (quiet_sees _)
  · apply Continues.pass nests_lifetime
    intro _ name nameFit
    apply Continues.pass (nests_lifetimeBounds _)
    exact fun _ bounds boundsFit => .pure fun _ => by grind
  apply Continues.decided (quiet_sees _)
  · apply Continues.pass nests_identifier
    intro _ name nameFit
    apply Continues.pass (nests_optionalBounds _ orderly)
    intro _ bounds boundsFit
    apply Continues.skip (idle_optionalSymbol _)
    intro _ given
    apply Continues.passEither (fun _ => Nests.one (orderly.types true)) (fun _ => Nests.none)
    exact fun _ default defaultFit => .pure fun _ => by grind
  apply Continues.skip (idle_optionalWord _)
  intro _ constant
  split
  · apply Continues.pass nests_identifier
    intro _ name nameFit
    apply Continues.skip (idle_symbol _)
    intro _ _
    apply Continues.pass (orderly.types true)
    intro _ type typeFit
    apply Continues.skip (idle_optionalSymbol _)
    intro _ given
    apply Continues.passEither
      (fun _ => Nests.one (nests_of_carries (carries_constArgument orderly))) (fun _ => Nests.none)
    exact fun _ default defaultFit => .pure fun _ => by grind
  apply Continues.quiet (quiet_sees _)
  intro blank
  split
  · apply Continues.pass nests_anyWord
    exact fun _ name nameFit => .pure fun _ => by grind
  · exact .fail

theorem nests_forLifetimes (orderly : Orderly nested) : Nests (·.1) (forLifetimes nested) := by
  apply Yields.of_start
  intro origin
  unfold forLifetimes
  apply Continues.skip (idle_optionalWord _)
  intro _ given
  split
  · apply Continues.skip (idle_symbol _)
    intro _ _
    apply Continues.pass (nests_listed _ _ collects_flatten (nests_genericParameter false orderly))
    intro _ parameters fit
    apply Continues.skip (idle_symbol _)
    exact fun _ _ => .pure fun _ => by grind
  · exact .pure fun _ => by grind

theorem nests_genericParameters (orderly : Orderly nested) :
    Nests (·.1) (genericParameters nested) := by
  apply Yields.of_start
  intro origin
  apply Continues.skip (idle_optionalSymbol _)
  intro _ given
  split
  · apply Continues.pass (nests_listed _ _ collects_flatten (nests_genericParameter true orderly))
    intro _ parameters fit
    apply Continues.skip (idle_symbol _)
    exact fun _ _ => .pure fun _ => by grind
  · exact .pure fun _ => by grind

theorem nests_condition (orderly : Orderly nested) : Nests id (condition nested) := by
  apply Yields.of_start
  intro origin
  unfold condition
  apply Continues.decided (quiet_sees _)
  · apply Continues.pass nests_lifetime
    intro _ name nameFit
    apply Continues.pass (nests_lifetimeBounds _)
    exact fun _ bounds boundsFit => .pure fun _ => by grind
  · apply Continues.pass (nests_forLifetimes orderly)
    rintro _ ⟨lifetimes, _⟩ lifetimesFit
    apply Continues.pass (orderly.types true)
    intro _ type typeFit
    apply Continues.skip (idle_symbol _)
    intro _ _
    apply Continues.pass (nests_bounds _ orderly)
    exact fun _ bounds boundsFit => .pure fun _ => by grind

theorem nests_conditions (orderly : Orderly nested) : Nests (·.1) (conditions nested) := by
  apply Yields.of_start
  intro origin
  apply Continues.skip (idle_optionalWord _)
  intro _ given
  split
  · apply Continues.quiet (quiet_sees _)
    intro generic
    split
    · exact .fail
    · apply Continues.pass (nests_joined _ _ collects_flatten (nests_condition orderly))
      exact fun _ found fit => .pure fun _ => by grind
  · exact .pure fun _ => by grind

/-! ## Bounds -/

theorem nests_captures : NestsSome id captures := by
  apply Yields.of_start
  intro origin
  apply Continues.pass (takesSome_word _)
  intro _ _ some
  apply Continues.moved (by simpa using some)
  apply Continues.skip (idle_symbol _)
  intro _ _
  apply Continues.pass
  · apply nests_listed _ _ collects_id
    apply Yields.of_start
    intro origin
    apply Continues.decided (quiet_sees _)
    · exact .restart nests_lifetime
    · exact .restart (nests_nameWhere (seesWords_identifierNext.either (seesWords_wordNext _)))
  intro _ captured fit
  apply Continues.skip (idle_symbol _)
  exact fun _ _ => .pure fun _ => by grind

theorem nests_traitBound (constant : Bool) (orderly : Orderly nested) :
    NestsSome Bound.parts (traitBound nested constant) := by
  apply Yields.of_start
  intro origin
  unfold traitBound
  apply Continues.pass (nests_forLifetimes orderly)
  rintro _ ⟨lifetimes, bound⟩ lifetimesFit
  apply Continues.quiet quiet_here
  intro start
  apply Continues.quiet (quiet_sees _)
  intro enclosed
  extract_lets rest
  have nests : ∀ taken isConstant, Encloses taken lifetimes →
      Continues origin taken [] (fun taken value => taken ≠ [] ∧ Encloses taken value.parts)
        (rest isConstant) := by
    intro taken isConstant lifetimesFit
    dsimp only [rest]
    split
    · exact .failAt_bind start
    apply Continues.skip (idle_optionalSymbol _)
    intro _ maybe
    -- those that follow the mark take the place of those before it
    apply Continues.proceedEither fun all answer => Encloses all answer.1
    · intro _
      apply Continues.finish (nests_forLifetimes orderly)
      exact fun _ _ _ fit => fit.append_left
    · exact fun _ => .pure fun _ => lifetimesFit.append_right
    rintro _ ⟨lifetimes, _⟩ lifetimesFit
    apply Continues.pass (nests_path false orderly)
    rintro _ path ⟨some, pathFit⟩
    apply Continues.moved (by simp [some])
    have finish : ∀ all arguments, Encloses all (lifetimes ++ path.parts) → Encloses all arguments →
        Continues origin all [] (fun all (value : Bound) => Encloses all value.parts)
          (if isConstant then return ⟨.verbatim, []⟩
            else return ⟨.trait, lifetimes ++ path.parts ++ arguments⟩) := by
      intro all arguments before fit
      split
      · exact .pure fun _ => by grind
      · exact .pure fun _ => by grind
    apply Continues.quiet (quiet_sees _)
    intro round
    split
    · apply Continues.skip (idle_optionalSymbol _)
      intro _ _
      apply Continues.pass (nests_roundArguments orderly)
      intro _ arguments argumentsFit
      exact .pure_bind (finish _ arguments.1 (by grind) (by grind))
    · exact .pure_bind (finish _ [] (by grind) (by grind))
  split
  · apply Continues.skip (.of_reads (reads_inside _ (idle_word _).reads))
    intro _ _
    exact .pure_bind (nests _ true (by grind))
  · apply Continues.skip (idle_optionalWord _)
    exact fun _ isConstant => nests _ isConstant (by grind)

theorem nests_bound (capture constant : Bool) (orderly : Orderly nested) :
    NestsSome Bound.parts (bound nested capture constant) := by
  apply Yields.of_start
  intro origin
  unfold bound
  apply Continues.decided (quiet_sees _)
  · apply Continues.pass nests_lifetime
    exact fun _ name fit => .pure fun _ => by grind
  apply Continues.quiet (quiet_sees _)
  intro captures
  split
  · apply Continues.quiet quiet_here
    intro start
    apply Continues.pass nests_captures
    rintro _ captured ⟨some, fit⟩
    split
    · exact .pure fun _ => by grind
    · exact .failAt start
  apply Continues.decided (quiet_sees _)
  · exact .restart (nests_inside _ _ (nests_traitBound constant orderly).nests)
  · exact .restart (nests_traitBound constant orderly)

/-- There is a first bound, so something is taken. -/
theorem nests_boundList (plus capture constant : Bool) (orderly : Orderly nested) :
    NestsSome (fun bounds => (bounds.map Bound.parts).flatten)
      (boundList nested plus capture constant) := by
  have takes : TakesSome (boundList nested plus capture constant) :=
    (moves_boundList plus capture constant orderly.toFaithful).weaken fun _ _ known => known.1
  apply takes.both
  apply Yields.of_start
  intro origin
  unfold boundList
  apply Continues.proceed
  · apply Continues.iterating fun taken state =>
      Encloses taken (state.1.reverse.map Bound.parts).flatten
    · exact encloses_nil.mpr trivial
    rintro taken ⟨found, done⟩ known
    dsimp only
    split
    · exact .pure fun _ => known
    apply Continues.pass (orderly.bound capture constant)
    rintro _ bound ⟨_, fit⟩
    apply Continues.skip (idle_whereAllowed plus (idle_optionalSymbol _))
    intro _ more
    split
    · apply Continues.quiet (quiet_sees _)
      exact fun goesOn => .pure fun _ => by grind
    · exact .pure fun _ => by grind
  · rintro _ ⟨found, _⟩ fit
    exact .pure fun _ => fit

end ProgramGraph.Grammar
