import ProgramGraph.Proofs.Grammar.Nesting.Path
import ProgramGraph.Proofs.Grammar.Type

/-!
# What types enclose

A type is an element of the trees that it takes, and what it holds fits into them.
-/

namespace ProgramGraph.Grammar

open Source Outline

variable {nested : Nested} {origin : Cursor} {taken : List TokenTree}

/-! ## Lists of bounds -/

theorem nests_bindingBounds (start : Nat) (plus capture constant : Bool)
    (orderly : Orderly nested) :
    NestsSome partsOf (bindingBounds nested start plus capture constant) := by
  apply Yields.of_start
  intro origin
  apply Continues.pass (nests_boundList plus capture constant orderly)
  intro _ found known
  split
  · exact .pure fun _ => known
  · exact .failAt start

theorem nests_furtherBounds (orderly : Orderly nested) :
    Nests partsOf (furtherBounds nested) := by
  apply nests_gather collects_parts
  apply Yields.of_start
  intro origin
  apply Continues.skip (idle_optionalSymbol _)
  intro _ goesOn
  split
  · apply Continues.pass (orderly.bound false false)
    exact fun _ bound known => .pure fun _ => by grind
  · exact .pure fun _ => by grind

theorem nests_openBounds (orderly : Orderly nested) :
    Nests (fun answer => partsOf answer.1) (openBounds nested) := by
  apply Yields.of_start
  intro origin
  unfold openBounds
  apply Continues.proceed
  · apply Continues.iterating fun taken state => Encloses taken (partsOf state.1.reverse)
    · exact encloses_nil.mpr trivial
    rintro taken ⟨found, done, hanging⟩ known
    apply Continues.skip (idle_whereAllowed _ (idle_optionalSymbol _))
    intro _ goesOn
    split
    · exact .pure fun _ => known.append_right
    apply Continues.decided (quiet_sees _)
    · apply Continues.pass (orderly.bound false false)
      exact fun _ bound boundFits => .pure fun _ => by grind [partsOf]
    · exact .pure fun _ => known.append_right
  · rintro _ ⟨found, _, hanging⟩ fit
    exact .pure fun _ => fit

/-! ## Function pointers -/

theorem nests_pointerParameter (receiver : Bool) (orderly : Orderly nested) :
    Nests id (pointerParameter nested receiver) := by
  apply Yields.of_start
  intro origin
  unfold pointerParameter
  apply Continues.atStart
  extract_lets named receiverNext rest
  have kept : ∀ taken, taken ≠ [] →
      Continues origin taken [] (fun taken outlines => Encloses taken outlines)
        (do return [← element (.type .other) origin.position []]) := by
    intro taken some
    apply Continues.proceed (.element some (by simp))
    exact fun _ _ carries => .pure fun _ => carries.encloses
  have nests : ∀ taken mutable,
      Continues origin taken [] (fun taken outlines => Encloses taken outlines)
        (rest mutable) := by
    intro taken mutable
    apply Continues.quiet (quiet_sees _)
    intro isReceiver
    apply Continues.quiet (quiet_sees _)
    intro named
    apply Continues.quiet (quiet_sees _)
    intro marked
    extract_lets rest
    have nests : ∀ taken names, Encloses taken names →
        Continues origin taken [] (fun taken outlines => Encloses taken outlines)
          (rest names) := by
      intro taken names namesFit
      apply Continues.quiet (quiet_sees _)
      intro receiverNext
      split
      · apply Continues.pass (takesSome_takeMany 1)
        exact fun _ _ some => kept _ (by simp [some])
      split
      · apply Continues.pass (takesSome_word _)
        exact fun _ _ some => kept _ (by simp [some])
      apply Continues.pass (orderly.type true)
      intro _ type carries
      split
      · exact kept _ (by grind)
      · exact .pure fun _ => by grind
    split
    · apply Continues.pass nests_anyWord
      intro _ name fit
      apply Continues.skip (idle_symbol _)
      exact fun _ _ => .pure_bind (nests _ [name] (by grind))
    · exact .pure_bind (nests _ [] (by simp))
  split
  · apply Continues.skip (idle_takeIf _ _)
    exact fun _ mutable => nests _ mutable
  · exact .pure_bind (nests _ false)

theorem nests_pointerParameters (orderly : Orderly nested) :
    Nests id (pointerParameters nested) := by
  apply Yields.of_start
  intro origin
  unfold pointerParameters
  apply Continues.proceed
  · apply Continues.iterating fun taken state => Encloses taken state.1.reverse.flatten
    · exact encloses_nil.mpr trivial
    rintro taken ⟨found, count, done⟩ known
    apply Continues.quiet quiet_atEnd
    intro ended
    split
    · exact .pure fun _ => known
    apply Continues.pass (nests_outerAttributes orderly)
    intro _ attributes attributesFit
    apply Continues.decided (quiet_sees _)
    · apply Continues.quiet (quiet_sees _)
      intro named
      extract_lets rest
      have nests : ∀ taken names, Encloses taken found.reverse.flatten →
          Encloses taken attributes → Encloses taken names →
            Continues origin taken []
              (fun taken answer =>
                Encloses taken (answer.getD (found, count, done)).1.reverse.flatten)
              (rest names) := by
        intro taken names known attributesFit namesFit
        apply Continues.skip (idle_symbol _)
        intro _ _
        apply Continues.skip (idle_optionalSymbol _)
        exact fun _ _ => .pure fun _ => by grind
      split
      · apply Continues.pass nests_anyWord
        intro _ name fit
        apply Continues.skip (idle_symbol _)
        exact fun _ _ => .pure_bind (nests _ [name] (by grind) (by grind) (by grind))
      · exact .pure_bind (nests _ [] (by grind) (by grind) (by grind))
    · apply Continues.pass (nests_pointerParameter _ orderly)
      intro _ parts fit
      apply Continues.separator quiet_atEnd
      exact fun _ => .pure fun _ => by grind
  · rintro _ ⟨found, _, _⟩ fit
    exact .pure fun _ => fit

theorem carries_functionPointer (lifetimes : List Outline) (orderly : Orderly nested)
    (lifetimesFit : Encloses taken lifetimes) :
    Continues origin taken [] Carries (functionPointer nested origin.position lifetimes) := by
  unfold functionPointer
  apply Continues.skip (idle_optionalWord _)
  intro _ _
  apply Continues.skip idle_optionalLinkage
  intro _ _
  apply Continues.skip (idle_word _)
  intro _ _
  apply Continues.pass (nests_inside _ _ (nests_pointerParameters orderly))
  rintro _ parameters ⟨some, parametersFit⟩
  apply Continues.pass (nests_returned false orderly)
  exact fun _ output outputFit => .element (by grind) (by grind)

/-! ## The other types -/

theorem carries_enclosedType (plus : Bool) (orderly : Orderly nested) :
    Yields Carries (enclosedType nested plus) := by
  apply Yields.of_start
  intro origin
  unfold enclosedType
  apply Continues.atStart
  apply Continues.pass
  · apply nests_inside (·.2)
    apply Yields.of_start
    intro origin
    apply Continues.decided quiet_atEnd
    · exact .pure fun _ => by grind
    apply Continues.decided (quiet_sees _)
    · apply Continues.atStart
      apply Continues.pass (nests_bindingBounds _ true false false orderly)
      rintro _ bounds ⟨some, fit⟩
      apply Continues.proceed (.element (by grind) (by grind))
      exact fun _ _ carries => .pure fun _ => by grind
    apply Continues.decided (quiet_sees _)
    · apply Continues.pass (nests_traitBound false orderly)
      exact fun _ bound known => .pure fun _ => by grind
    apply Continues.pass (orderly.type true)
    intro _ type carries
    apply Continues.skip (idle_optionalSymbol _)
    intro _ comma
    split
    · apply Continues.pass (nests_separated _ collects_id (orderly.types true))
      exact fun _ others fit => .pure fun _ => by grind
    · exact .pure fun _ => by grind
  rintro group ⟨form, parts⟩ ⟨some, fit⟩
  dsimp only
  split
  · apply Continues.pass (nests_furtherBounds orderly)
    exact fun _ bounds boundsFit => .element (by grind) (by grind)
  · apply Continues.quiet (quiet_sees _)
    intro plusNext
    generalize same : (plus && _ && plusNext) = joins
    cases joins with
    | false => exact .element (by grind) (by grind)
    | true =>
      apply Continues.pass (nests_furtherBounds orderly)
      intro _ bounds boundsFit
      have childrenFit : Encloses group (parts.map Outline.children).flatten := by
        simp only [Bool.and_eq_true] at same
        rcases same with ⟨⟨_, binds⟩, _⟩
        split at binds
        · next same =>
          rcases List.map_eq_singleton_iff.mp same with ⟨part, rfl, known⟩
          simpa using fit.children (by simp [known])
        · next same =>
          rcases List.map_eq_singleton_iff.mp same with ⟨part, rfl, known⟩
          simpa using fit.children (by simp [known])
        · cases binds
      exact .element (by grind) (by grind)
  · exact .element (by grind) (by grind)

theorem carries_namedType (lifetimes : Option (List Outline)) (plus : Bool)
    (orderly : Orderly nested) (lifetimesFit : Encloses taken (lifetimes.getD [])) :
    Continues origin taken [] Carries (namedType nested origin.position lifetimes plus) := by
  unfold namedType
  apply Continues.pass (nests_typePath orderly)
  rintro _ path ⟨some, fit⟩
  split
  · exact .element (by grind) (by grind)
  apply Continues.quiet (quiet_sees _)
  intro exclaims
  split
  · apply Continues.skip idle_macroArguments
    exact fun _ _ => .element (by grind) (by grind)
  apply Continues.quiet (quiet_sees _)
  intro plusNext
  split
  · have none : Nests (fun answer : List Bound × Bool => partsOf answer.1) (pure ([], false)) := by
      apply Yields.of_start
      exact fun origin => .pure fun _ => encloses_nil.mpr trivial
    apply Continues.passEither (fun _ => nests_openBounds orderly) (fun _ => none)
    rintro _ ⟨bounds, hanging⟩ boundsFit
    exact .element (by grind) (by grind)
  · exact .element (by grind) (by grind)

theorem carries_sequenceType (orderly : Orderly nested) :
    Yields Carries (sequenceType nested) := by
  apply Yields.of_start
  intro origin
  unfold sequenceType
  apply Continues.atStart
  apply Continues.pass
  · apply nests_inside (·.2)
    apply Yields.of_start
    intro origin
    apply Continues.pass (orderly.type true)
    intro _ type carries
    apply Continues.skip (idle_optionalSymbol _)
    intro _ more
    split
    · apply Continues.pass (orderly.expression true)
      exact fun _ length lengthCarries => .pure fun _ => by grind
    · exact .pure fun _ => by grind
  rintro _ ⟨form, parts⟩ ⟨some, fit⟩
  exact .element (by grind) (by grind)

/-! ## Types -/

theorem carries_type (plus : Bool) (orderly : Orderly nested) :
    Yields Carries (type nested plus) := by
  apply Yields.of_start
  intro origin
  unfold type
  apply Continues.atStart
  apply Continues.pass (nests_forLifetimes orderly)
  rintro front ⟨lifetimes, given⟩ lifetimesFit
  dsimp -zeta only
  extract_lets rest
  have carries : ∀ done, Continues origin ([] ++ front) [] Carries (rest done) := by
    intro done
    apply Continues.decided (quiet_sees _)
    · apply Continues.finish (carries_enclosedType plus orderly)
      exact fun _ _ _ carries => carries.append_left
    apply Continues.decided (quiet_sees _)
    · exact carries_functionPointer lifetimes orderly lifetimesFit.append_left
    apply Continues.decided (quiet_sees _)
    · apply carries_namedType _ plus orderly
      split <;> grind
    apply Continues.tried (takesIf_optionalWord _)
    · intro _ some
      apply Continues.skip (idle_optionalSymbol _)
      intro _ star
      apply Continues.pass (nests_bindingBounds _ _ _ _ orderly)
      rintro _ bounds ⟨_, fit⟩
      split
      · exact .element (by grind) (by grind)
      · exact .element (by grind) (by grind)
    apply Continues.decided (quiet_sees _)
    · apply Continues.finish (carries_sequenceType orderly)
      exact fun _ _ _ carries => carries.append_left
    apply Continues.tried (takesIf_optionalSymbol rfl)
    · intro _ some
      apply Continues.skip (idle_takeWhere _ _)
      intro _ _
      apply Continues.pass (orderly.type false)
      exact fun _ type carries => .element (by grind) (by grind)
    apply Continues.tried (takesIf_optionalSymbol rfl)
    · intro _ some
      apply Continues.pass nests_optionalLifetime
      intro _ lifetime fit
      apply Continues.skip (idle_optionalWord _)
      intro _ _
      apply Continues.pass (orderly.type false)
      exact fun _ type carries => .element (by grind) (by grind)
    apply Continues.tried (takesIf_optionalSymbol rfl)
    · exact fun _ some => .element (by grind) (by grind)
    apply Continues.tried (takesIf_optionalWord _)
    · intro _ some
      apply Continues.pass (nests_bindingBounds _ _ _ _ orderly)
      exact fun _ bounds fit => .element (by grind) (by grind)
    apply Continues.tried (takesIf_optionalWord _)
    · exact fun _ some => .element (by grind) (by grind)
    apply Continues.decided (quiet_sees _)
    · apply Continues.pass (nests_bindingBounds _ _ _ _ orderly)
      exact fun _ bounds fit => .element (by grind) (by grind)
    · exact .fail
  split
  · apply Continues.quiet (quiet_guardThat _)
    exact fun done => carries done
  · exact carries ()

end ProgramGraph.Grammar
