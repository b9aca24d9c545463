import ProgramGraph.Grammar.Type
import ProgramGraph.Proofs.Grammar.Path

/-!
# What types show

A type shows what it takes, takes something, and covers exactly the trees that it takes.  The
latter is what makes the text of a type the text between its ends.
-/

namespace ProgramGraph.Grammar

open Source Outline

variable {nested : Nested} {origin : Cursor} {taken : List TokenTree} {blocks : List (List Outline)}

/-- An element from the beginning to the place where it ends. -/
theorem Continues.covering {form : Form} {children : List Outline} (plain : form.declares = false)
    (some : taken ≠ []) (rearranges : Rearranges blocks [children]) :
    Continues origin taken blocks Covering (element form origin.position children) := by
  apply Continues.spanned some
  apply Continues.pure
  intro held
  refine ⟨⟨some, rfl⟩, held.rearrange ?_⟩
  apply rearranges.trans
  constructor <;> simp [plain]

/-! ## Lists of bounds -/

theorem idle_macroArguments : Idle macroArguments :=
  (idle_symbol _).bind fun _ => idle_takeWhere _ _

theorem moves_bindingBounds (start : Nat) (plus capture constant : Bool)
    (faithful : Faithful nested) :
    Moves partsOf (bindingBounds nested start plus capture constant) := by
  apply Moves.of_start
  intro origin
  apply Continues.move (moves_boundList plus capture constant faithful)
  intro _ found some
  apply Continues.moved (by simpa using some)
  split
  · exact .give (.refl _)
  · exact .failAt start

theorem reads_furtherBounds (faithful : Faithful nested) :
    Reads partsOf [] (furtherBounds nested) := by
  apply reads_gather collects_parts
  intro origin taken blocks
  apply Continues.skip (idle_optionalSymbol _)
  intro _ goesOn
  split
  · apply Continues.read (faithful.bound false false)
    intro _ bound
    exact .give (.refl _)
  · exact .give (.empty _)

theorem reads_openBounds (faithful : Faithful nested) :
    Reads (fun answer => partsOf answer.1) [] (openBounds nested) := by
  intro origin taken blocks
  unfold openBounds
  apply Continues.iterate fun state => partsOf state.1.reverse
  · rfl
  · rintro ⟨found, done, hanging⟩ origin taken blocks
    apply Continues.skip (idle_whereAllowed _ (idle_optionalSymbol _))
    intro _ goesOn
    split
    · exact .give (.refl _)
    apply Continues.skip (.of_quiet (quiet_sees _))
    intro _ follows
    split
    · apply Continues.read (faithful.bound false false)
      intro _ bound
      apply Continues.give
      constructor <;> simp [partsOf] <;> grind
    · exact .give (.refl _)
  · rintro _ ⟨found, _, hanging⟩
    exact .give (.refl _)

/-! ## Function pointers -/

theorem idle_optionalLinkage : Idle optionalLinkage := by
  apply (idle_optionalWord _).bind
  intro linked
  split
  · exact (idle_takeIf _ _).bind fun _ => .pure ()
  · exact .pure ()

theorem reads_pointerParameter (receiver : Bool) (faithful : Faithful nested) :
    Reads id [] (pointerParameter nested receiver) := by
  intro origin taken blocks
  unfold pointerParameter
  apply Continues.skip (.of_quiet quiet_here)
  intro _ start
  extract_lets named receiverNext rest
  have reads : ∀ taken mutable,
      Continues origin taken blocks (Gives id blocks) (rest mutable) := by
    intro taken mutable
    apply Continues.skip (.of_quiet (quiet_sees _))
    intro _ isReceiver
    apply Continues.skip (.of_quiet (quiet_sees _))
    intro _ named
    apply Continues.skip (.of_quiet (quiet_sees _))
    intro _ marked
    extract_lets rest
    have reads : ∀ taken names,
        Continues origin taken (names :: blocks) (Gives id blocks) (rest names) := by
      intro taken names
      apply Continues.skip (.of_quiet (quiet_sees _))
      intro _ receiverNext
      split
      · apply Continues.skip (idle_takeMany 2)
        intro _ _
        exact .last (.forget (.one (.leaf rfl start)) [names]) (.refl _)
      split
      · apply Continues.skip (idle_word _)
        intro _ _
        exact .last (.forget (.one (.leaf rfl start)) [names]) (.refl _)
      apply Continues.read (faithful.type true)
      intro _ type
      split
      · exact .last (.forget (.one (.leaf rfl start)) [[type], names]) (.refl _)
      · exact .give (.append _ _ _)
    split
    · apply Continues.read moves_anyWord.reads
      intro _ name
      apply Continues.skip (idle_symbol _)
      intro _ _
      exact .pure_bind (reads _ [name])
    · apply Continues.read .none
      exact fun _ names => reads _ names
  split
  · apply Continues.skip (idle_takeIf _ _)
    exact fun _ mutable => reads _ mutable
  · apply Continues.skip (.pure false)
    exact fun _ mutable => reads _ mutable

theorem reads_pointerParameters (faithful : Faithful nested) :
    Reads id [] (pointerParameters nested) := by
  intro origin taken blocks
  unfold pointerParameters
  apply Continues.iterate fun state => state.1.reverse.flatten
  · rfl
  · rintro ⟨found, count, done⟩ origin taken blocks
    apply Continues.skip (.of_quiet quiet_atEnd)
    intro _ ended
    split
    · exact .give (.refl _)
    apply Continues.read (reads_outerAttributes faithful)
    intro _ attributes
    apply Continues.skip (.of_quiet (quiet_sees _))
    intro _ variadic
    split
    · apply Continues.skip (.of_quiet (quiet_sees _))
      intro _ named
      extract_lets rest
      have reads : ∀ taken names,
          Continues origin taken (names :: attributes :: found.reverse.flatten :: blocks)
            (Gives (fun answer => (answer.getD (found, count, done)).1.reverse.flatten) blocks)
            (rest names) := by
        intro taken names
        apply Continues.skip (idle_symbol _)
        intro _ _
        apply Continues.skip (idle_optionalSymbol _)
        intro _ _
        apply Continues.give
        constructor <;> simp <;> grind
      split
      · apply Continues.read moves_anyWord.reads
        intro _ name
        apply Continues.skip (idle_symbol _)
        intro _ _
        exact .pure_bind (reads _ [name])
      · apply Continues.read .none
        exact fun _ names => reads _ names
    · apply Continues.read (reads_pointerParameter _ faithful)
      intro _ parts
      apply Continues.separator quiet_atEnd
      intro _
      apply Continues.give
      constructor <;> simp <;> grind
  · rintro _ ⟨found, _, _⟩
    exact .give (.refl _)

theorem covering_functionPointer (lifetimes : List Outline) (faithful : Faithful nested) :
    Continues origin taken [lifetimes] Covering
      (functionPointer nested origin.position lifetimes) := by
  unfold functionPointer
  apply Continues.skip (idle_optionalWord _)
  intro _ _
  apply Continues.skip idle_optionalLinkage
  intro _ _
  apply Continues.pass (yields_word _)
  rintro _ _ ⟨span, rfl⟩
  apply Continues.read (reads_inside _ (reads_pointerParameters faithful))
  intro _ parameters
  apply Continues.read (reads_returned false faithful)
  intro _ output
  apply Continues.covering rfl
  · simp
  · constructor <;> simp <;> grind

/-! ## The other types -/

theorem covering_enclosedType (plus : Bool) (faithful : Faithful nested) :
    Yields Covering (enclosedType nested plus) := by
  apply Yields.of_start
  intro origin
  unfold enclosedType
  apply Continues.atStart
  apply Continues.move
  · apply moves_inside (·.2)
    intro origin taken blocks
    apply Continues.skip (.of_quiet quiet_atEnd)
    intro _ ended
    split
    · exact .give (.empty _)
    apply Continues.skip (.of_quiet (quiet_sees _))
    intro _ lifetime
    split
    · apply Continues.skip (.of_quiet quiet_here)
      intro _ start
      apply Continues.read (moves_bindingBounds start true false false faithful).reads
      intro _ bounds
      apply Continues.readFrom (.element rfl start (partsOf bounds)) (.refl _)
      intro _ outline
      exact .give (.refl _)
    apply Continues.skip (.of_quiet (quiet_sees _))
    intro _ maybe
    split
    · apply Continues.read (moves_traitBound false faithful).reads
      intro _ bound
      exact .give (.refl _)
    apply Continues.read (faithful.type true)
    intro _ type
    apply Continues.skip (idle_optionalSymbol _)
    intro _ comma
    split
    · apply Continues.read (reads_separated _ collects_id (faithful.type true))
      intro _ others
      exact .give (.append _ _ _)
    · exact .give (.refl _)
  rintro _ ⟨form, parts⟩ some
  dsimp only
  split
  · apply Continues.read (reads_furtherBounds faithful)
    intro _ bounds
    apply Continues.covering rfl
    · simp [some]
    · exact .append _ _ _
  · apply Continues.skip (.of_quiet (quiet_sees _))
    intro _ plusNext
    -- which types can be the first bound does not matter
    generalize (plus && _ && plusNext) = joins
    split
    · apply Continues.read (reads_furtherBounds faithful)
      intro _ bounds
      apply Continues.covering rfl
      · simp [some]
      · constructor <;> simp <;> grind
    · apply Continues.covering rfl
      · simp [some]
      · exact .refl _
  · apply Continues.covering (Form.declares_type _)
    · simpa using some
    · exact .refl _

theorem covering_namedType (lifetimes : Option (List Outline)) (plus : Bool)
    (faithful : Faithful nested) :
    Continues origin taken [lifetimes.getD []] Covering
      (namedType nested origin.position lifetimes plus) := by
  unfold namedType
  apply Continues.move (moves_typePath faithful)
  intro _ path some
  split
  · apply Continues.covering rfl
    · simp [some]
    · exact .keep _ _ _
  apply Continues.skip (.of_quiet (quiet_sees _))
  intro _ exclaims
  split
  · apply Continues.skip idle_macroArguments
    intro _ _
    apply Continues.covering rfl
    · simp [some]
    · exact .keep _ _ _
  apply Continues.skip (.of_quiet (quiet_sees _))
  intro _ plusNext
  split
  · have none : Reads (fun answer : List Bound × Bool => partsOf answer.1) [] (pure ([], false)) :=
      fun _ _ _ => .give (.empty _)
    apply Continues.either (fun _ => reads_openBounds faithful) (fun _ => none)
    rintro _ ⟨bounds, hanging⟩
    apply Continues.covering rfl
    · simp [some]
    · constructor <;> simp <;> grind
  · apply Continues.covering rfl
    · simp [some]
    · exact .keep _ _ _

theorem covering_sequenceType (faithful : Faithful nested) :
    Yields Covering (sequenceType nested) := by
  apply Yields.of_start
  intro origin
  unfold sequenceType
  apply Continues.atStart
  apply Continues.move
  · apply moves_inside (·.2)
    intro origin taken blocks
    apply Continues.read (faithful.type true)
    intro _ type
    apply Continues.skip (idle_optionalSymbol _)
    intro _ more
    split
    · apply Continues.read (faithful.expression true)
      intro _ length
      exact .give (.append _ _ _)
    · exact .give (.refl _)
  rintro _ ⟨form, parts⟩ some
  apply Continues.covering (Form.declares_type _)
  · simpa using some
  · exact .refl _

/-! ## Types -/

/-- What may follow the parameters that a type is given for all of is a word. -/
theorem word_of_afterLifetimes {trees : List TokenTree} (looked : afterLifetimes trees = true) :
    groupNext .round trees = false ∧
      (oneOfWords ["fn", "unsafe", "extern"] trees = false →
        anyOf [identifierNext, oneOfWords placeWords, symbolNext "::", symbolNext "<"] trees =
          true) := by
  cases trees with
  | nil => cases looked
  | cons tree trees =>
      cases tree with
      | group => cases looked
      | leaf unit =>
          rcases unit with ⟨form, text, span⟩
          cases form with
          | word =>
              refine ⟨rfl, fun other => ?_⟩
              rcases (Bool.or_eq_true _ _).mp looked with identifier | listed
              · have named : identifierNext (.leaf ⟨.word, text, span⟩ :: trees) = true :=
                  identifier
                simp [anyOf, named]
              · simp only [oneOfWords, List.contains_eq_mem, List.mem_cons, decide_eq_true_eq,
                  List.not_mem_nil, or_false] at listed
                rcases listed with rfl | rfl | rfl | rfl | rfl | rfl | rfl
                · cases other
                · cases other
                · cases other
                all_goals rfl
          | _ => cases looked

/-- After the lifetimes that it is given, a type is a function pointer or begins with a name: what
else a type may be does not follow them. -/
theorem covering_afterLifetimes {enclosed other : Reader Outline} (lifetimes : List Outline)
    (plus : Bool) (faithful : Faithful nested) :
    Continues origin taken [lifetimes] Covering (do
      guardThat afterLifetimes
      if ← sees (groupNext .round) then
        enclosed
      else if ← sees (oneOfWords ["fn", "unsafe", "extern"]) then
        functionPointer nested origin.position lifetimes
      else if ← sees
          (anyOf [identifierNext, oneOfWords placeWords, symbolNext "::", symbolNext "<"]) then
        namedType nested origin.position (some lifetimes) plus
      else
        other) := by
  apply Continues.guarded
  intro looked
  apply Continues.seen
  intro round sawRound
  apply Continues.choose
  · intro found
    refine .never fun trees follow => ?_
    have other := (word_of_afterLifetimes (looked trees follow)).1
    rw [sawRound trees follow, found] at other
    cases other
  intro _
  apply Continues.seen
  intro pointer sawPointer
  apply Continues.choose
  · exact fun _ => covering_functionPointer lifetimes faithful
  intro notPointer
  apply Continues.seen
  intro named sawNamed
  apply Continues.choose
  · exact fun _ => covering_namedType (some lifetimes) plus faithful
  intro notNamed
  refine .never fun trees follow => ?_
  have named := (word_of_afterLifetimes (looked trees follow)).2
  rw [sawPointer trees follow, sawNamed trees follow] at named
  exact notNamed (named (Bool.eq_false_iff.mpr notPointer))

theorem covering_type (plus : Bool) (faithful : Faithful nested) :
    Yields Covering (type nested plus) := by
  apply Yields.of_start
  intro origin
  unfold type
  apply Continues.atStart
  apply Continues.yield (yields_forLifetimes faithful) (fun _ _ known => known.2)
  rintro more ⟨lifetimes, given⟩ ⟨nothing, _⟩
  cases given with
  | true =>
      exact covering_afterLifetimes lifetimes plus faithful
  | false =>
      cases nothing rfl
      apply Continues.decided (quiet_sees _)
      · exact (covering_enclosedType plus faithful).continues _
      apply Continues.decided (quiet_sees _)
      · exact covering_functionPointer lifetimes faithful
      apply Continues.decided (quiet_sees _)
      · exact (covering_namedType none plus faithful).rearrange (.bare _)
      apply Continues.tried (takesIf_optionalWord _)
      · intro _ some
        apply Continues.skip (idle_optionalSymbol _)
        intro _ star
        apply Continues.read (moves_bindingBounds _ _ _ _ faithful).reads
        intro _ bounds
        apply Continues.choose
        · exact fun _ => .covering rfl (by simp [some]) (.bare _)
        · exact fun _ => .covering rfl (by simp [some]) (.keep _ _ _)
      apply Continues.decided (quiet_sees _)
      · exact (covering_sequenceType faithful).continues _
      apply Continues.tried (takesIf_optionalSymbol rfl)
      · intro _ some
        apply Continues.skip (idle_takeWhere _ _)
        intro _ _
        apply Continues.read (faithful.type false)
        intro _ type
        exact .covering rfl (by simp [some]) (.keep _ _ _)
      apply Continues.tried (takesIf_optionalSymbol rfl)
      · intro _ some
        apply Continues.read reads_optionalLifetime
        intro _ lifetime
        apply Continues.skip (idle_optionalWord _)
        intro _ _
        apply Continues.read (faithful.type false)
        intro _ type
        exact .covering rfl (by simp [some]) ((Rearranges.append _ _ _).trans (.keep _ _ _))
      apply Continues.tried (takesIf_optionalSymbol rfl)
      · exact fun _ some => .covering rfl (by simp [some]) (.bare _)
      apply Continues.tried (takesIf_optionalWord _)
      · intro _ some
        apply Continues.read (moves_bindingBounds _ _ _ _ faithful).reads
        intro _ bounds
        exact .covering rfl (by simp [some]) (.keep _ _ _)
      apply Continues.tried (takesIf_optionalWord _)
      · exact fun _ some => .covering rfl (by simp [some]) (.bare _)
      apply Continues.decided (quiet_sees _)
      · apply Continues.move (moves_bindingBounds _ _ _ _ faithful)
        intro _ bounds some
        exact .covering rfl (by simp [some]) (.keep _ _ _)
      · exact .fail

theorem moves_type (plus : Bool) (faithful : Faithful nested) :
    Moves ([·]) (type nested plus) := by
  intro before value after done
  rcases covering_type plus faithful before value after done with ⟨taken, takes, ⟨some, _⟩, held⟩
  exact ⟨taken, takes, some, held⟩

end ProgramGraph.Grammar
