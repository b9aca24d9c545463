import ProgramGraph.Proofs.Grammar.Item
import ProgramGraph.Proofs.Grammar.Nesting.Statement

/-!
# What items enclose

An item is an element of the trees that it takes, its attributes among them, and what it holds fits
into it.  The order in which parts are shown is not that of the text, so the parts are collected one
after the other, and whatever was shown before fits into all that is taken then.
-/

namespace ProgramGraph.Grammar

open Source Outline

variable {nested : Nested} {origin : Cursor} {taken : List TokenTree}
  {shown attributes : List Outline}

/-! ## Visibility -/

theorem nests_restriction : Nests id restriction := by
  apply NestsSome.nests
  apply nests_inside
  apply Yields.of_start
  intro origin
  apply Continues.decided (quiet_sees _)
  · apply Continues.pass nests_anyWord
    intro _ name fit
    apply Continues.decided quiet_atEnd
    · exact .pure fun _ => by grind
    · exact .fail
  · apply Continues.skip (idle_word _)
    intro _ _
    exact .finish nests_plainPath fun _ _ _ fit => fit.append_left

theorem nests_visibility : Nests (·.1) visibility := by
  apply Yields.of_start
  intro origin
  apply Continues.skip (idle_optionalWord _)
  intro _ given
  split
  · apply Continues.decided (quiet_sees _)
    · apply Continues.pass nests_restriction
      exact fun _ names fit => .pure fun _ => by grind
    · exact .pure fun _ => by grind
  · exact .pure fun _ => by grind

/-! ## Functions -/

/-- The word of a receiver is the name of its type. -/
theorem nests_receiver (orderly : Orderly nested) : Nests (·.1) (receiver nested) := by
  apply Yields.of_start
  intro origin
  unfold receiver
  apply Continues.atStart
  apply Continues.skip (idle_optionalSymbol _)
  intro _ borrowed
  apply Continues.passEither (fun _ => nests_optionalLifetime) (fun _ => Nests.none)
  intro _ lifetime lifetimeFit
  apply Continues.skip (idle_optionalWord _)
  intro _ _
  apply Continues.quiet quiet_here
  intro place
  apply Continues.pass (yields_nameWhere (seesWords_wordNext _))
  rintro _ _ ⟨text, span, _, rfl, rfl, _⟩
  have nameFits := encloses_name text span
  apply Continues.skip (idle_whereAllowed _ (idle_optionalSymbol _))
  intro _ typed
  split
  · apply Continues.pass (orderly.types true)
    exact fun _ type fit => .pure fun _ => by grind
  extract_lets self
  have selfFits : Encloses [.leaf ⟨.word, text, span⟩] [self] := nameFits.element_of_name
  split
  · apply Continues.proceed (.element (by simp) (by grind))
    exact fun _ type carries => .pure fun _ => by grind
  · exact .pure fun _ => by grind

/-- A type without a pattern begins where the pattern is said to stand. -/
theorem nests_bareParameter (orderly : Orderly nested) (fit : Encloses taken attributes) :
    Continues origin taken [] (fun all parameter => Encloses all parameter.parts) (do
      let first := (← get).rest.head?.map fun tree => Span.mk tree.first tree.last
      let pattern := .element (.pattern .wildcard) (first.getD default) [] []
      return Parameter.typed [.ascription attributes pattern (← nested (.type true))]) := by
  intro here takes held value after done
  rcases run_bind_eq_ok_iff.mp done with ⟨_, _, got, rest⟩
  cases got
  rcases run_bind_eq_ok_iff.mp rest with ⟨type, middle, ran, same⟩
  rcases orderly.type true here type middle ran with ⟨more, takesMore, carries⟩
  cases same
  refine ⟨more, takes.trans takesMore, ?_⟩
  cases more with
  | nil => exact absurd rfl carries.ne_nil
  | cons tree more =>
      have begins : here.rest.head? = some tree := by rw [takesMore.rest]; rfl
      have pattern : Carries [tree]
          (.element (.pattern .wildcard) ⟨tree.first, tree.last⟩ [] []) :=
        carries_element (by simp) rfl (by simp) (by simp)
      have patternFits : Encloses (tree :: more)
          [.element (.pattern .wildcard) ⟨tree.first, tree.last⟩ [] []] :=
        pattern.encloses.append_right
      rw [begins]
      apply encloses_ascription fit.append_right
      · exact patternFits.append_left
      · exact carries.encloses.append_left

theorem nests_parameter (orderly : Orderly nested) (fit : Encloses taken attributes) :
    Continues origin taken [] (fun all parameter => Encloses all parameter.parts)
      (parameter nested attributes) := by
  unfold parameter
  apply Continues.skipping fit (idle_optionalSymbol _)
  intro taken variadic fit
  split
  · exact .pure fun _ => fit
  apply Continues.pass (yields_attempt (nests_receiver orderly))
  intro more answer known
  cases answer with
  | some answer => exact .pure fun _ => by grind [Parameter.parts]
  | none =>
      apply Continues.quiet (quiet_sees _)
      intro unnamed
      split
      · exact nests_bareParameter orderly fit.append_right
      · apply Continues.adding (fit : Encloses taken attributes).append_right
          (nests_of_carries orderly.pattern)
        intro taken pattern both
        apply Continues.skipping both (idle_symbol _)
        intro taken _ both
        apply Continues.skipping both (idle_optionalSymbol _)
        intro taken variadic both
        split
        · exact .pure fun _ => both
        · apply Continues.pass (orderly.types true)
          intro _ type typeFits
          apply Continues.pure
          intro _
          rw [encloses_append] at both
          exact encloses_ascription both.1.append_right both.2.append_right typeFits.append_left

theorem nests_parameters (orderly : Orderly nested) : Nests id (parameters nested) := by
  apply Yields.of_start
  intro origin
  unfold parameters
  apply Continues.proceed
  · apply Continues.iterating fun taken state => Encloses taken state.1.reverse.flatten
    · exact encloses_nil.mpr trivial
    rintro taken ⟨found, done⟩ known
    apply Continues.quiet quiet_atEnd
    intro ended
    split
    · exact .pure fun _ => known
    apply Continues.remembered (fun all => Encloses all found.reverse.flatten)
      (fun _ _ fit => fit.append_right) known
    apply Continues.pass (nests_outerAttributes orderly)
    intro _ attributes fit
    apply Continues.proceed (nests_parameter orderly fit.append_left)
    intro _ parameter partsFit
    extract_lets rest
    have goesOn : ∀ taken parts last, Encloses taken parts →
        Continues origin taken []
          (fun all answer => Encloses all found.reverse.flatten →
            Encloses all (answer.getD (found, done)).1.reverse.flatten)
          (rest (parts, last)) := by
      intro taken parts last fit
      apply Continues.separator quiet_atEnd
      exact fun _ => .pure fun _ known => by grind
    cases parameter with
    | receiver parts place =>
        dsimp only
        split
        · exact .pure_bind (goesOn _ parts false partsFit)
        · exact .failAt_bind place
    | typed parts => exact .pure_bind (goesOn _ parts false partsFit)
    | variadic parts => exact .pure_bind (goesOn _ parts true partsFit)
  · rintro _ ⟨found, _⟩ fit
    exact .pure fun _ => fit

theorem nests_signature (orderly : Orderly nested) : NestsSome id (signature nested) := by
  apply Yields.of_start
  intro origin
  unfold signature
  apply Continues.skip (.of_yields yields_functionWords)
  intro taken _
  apply Continues.adding (encloses_nil.mpr trivial) nests_identifier
  intro taken name fit
  apply Continues.adding fit (nests_genericParameters orderly)
  rintro taken ⟨generics, _⟩ fit
  apply Continues.adding fit (nests_inside _ _ (nests_parameters orderly)).nests
  intro taken inputs fit
  apply Continues.adding fit (nests_returned true orderly)
  intro taken output fit
  apply Continues.adding fit (nests_conditions orderly)
  rintro taken ⟨conditions, _⟩ fit
  exact .pure fun _ => ⟨by grind, by grind⟩

/-! ## Parts of items -/

theorem nests_constantName : Nests ([·]) constantName :=
  nests_nameWhere seesWords_constantName

theorem nests_constant (orderly : Orderly nested) : Nests Constant.parts (constant nested) := by
  apply Yields.of_start
  intro origin
  unfold constant
  apply Continues.adding (encloses_nil.mpr trivial) nests_constantName
  intro taken name fit
  apply Continues.adding fit (nests_genericParameters orderly)
  rintro taken ⟨generics, angled⟩ fit
  apply Continues.skipping fit (idle_symbol _)
  intro taken _ fit
  apply Continues.adding fit (orderly.types true)
  intro taken type fit
  apply Continues.skipping fit (idle_optionalSymbol _)
  intro taken given fit
  apply Continues.addingEither fit (fun _ => Nests.one (orderly.expressions true))
    (fun _ => Nests.none)
  intro taken value fit
  apply Continues.skipping fit (.of_yields (nests_conditions orderly))
  rintro taken ⟨_, conditional⟩ fit
  apply Continues.skipping fit (idle_symbol _)
  intro taken _ fit
  exact .pure fun _ => by grind

theorem nests_boundsUntil (stop : Look) (orderly : Orderly nested) :
    Nests id (boundsUntil nested stop) :=
  .map (nests_listed _ _ collects_parts (orderly.bound false true).nests)

theorem nests_noConditions : Nests (·.1) (pure ([], false) : Reader (List Outline × Bool)) := by
  apply Yields.of_start
  exact fun _ => .pure fun _ => encloses_nil.mpr trivial

theorem nests_typeDefinition (place : ConditionPlace) (orderly : Orderly nested) :
    NestsSome (fun type => type.name ++ type.bounds ++ type.definition)
      (typeDefinition nested place) := by
  apply Yields.of_start
  intro origin
  unfold typeDefinition
  apply Continues.skip (idle_word _)
  intro taken _
  apply Continues.adding (encloses_nil.mpr trivial) nests_identifier
  intro taken name fit
  apply Continues.adding fit (nests_genericParameters orderly)
  rintro taken ⟨generics, _⟩ fit
  apply Continues.skipping fit (idle_optionalSymbol _)
  intro taken isBounded fit
  apply Continues.addingEither fit (fun _ => nests_boundsUntil _ orderly) (fun _ => Nests.none)
  intro taken bounds fit
  apply Continues.addingEither fit (fun _ => nests_noConditions)
    (fun _ => nests_conditions orderly)
  rintro taken ⟨early, given⟩ fit
  apply Continues.skipping fit (idle_optionalSymbol _)
  intro taken defined fit
  apply Continues.addingEither fit (fun _ => Nests.one (orderly.types true)) (fun _ => Nests.none)
  intro taken definition fit
  apply Continues.addingEither fit (fun _ => nests_noConditions)
    (fun _ => nests_conditions orderly)
  rintro taken ⟨late, _⟩ fit
  apply Continues.skipping fit (idle_symbol _)
  intro taken _ fit
  exact .pure fun _ => ⟨by grind, by grind⟩

theorem nests_namedField (orderly : Orderly nested) : Nests id (namedField nested) := by
  apply Yields.of_start
  intro origin
  unfold namedField
  apply Continues.pass (nests_outerAttributes orderly)
  intro taken attributes fit
  apply Continues.adding fit nests_visibility
  rintro taken ⟨restriction, _⟩ fit
  apply Continues.quiet (quiet_sees _)
  intro blank
  apply Continues.adding fit nests_constantName
  intro taken name fit
  apply Continues.skipping fit (idle_symbol _)
  intro taken _ fit
  apply Continues.quiet (quiet_sees _)
  intro grouped
  split
  · apply Continues.restart
    apply Yields.of_start
    intro inner
    apply Continues.atStart
    apply Continues.pass (takesSome_takeMany 0)
    intro group _ some
    apply Continues.skip (.of_yields orderly.fields)
    intro more _
    apply Continues.proceed (.element (by grind) (encloses_nil.mpr trivial))
    intro _ type carries
    apply Continues.pure
    intro _
    have typeFits : Encloses (taken ++ _) [type] := carries.encloses.append_left
    grind
  · apply Continues.adding fit (orderly.types true)
    intro taken type fit
    exact .pure fun _ => by grind

theorem nests_namedFields (orderly : Orderly nested) : Nests id (namedFields nested) :=
  .map (nests_inside _ _ (nests_separated _ collects_flatten (nests_namedField orderly))).nests

theorem nests_placedField (orderly : Orderly nested) : Nests id (placedField nested) := by
  apply Yields.of_start
  intro origin
  unfold placedField
  apply Continues.pass (nests_outerAttributes orderly)
  intro taken attributes fit
  apply Continues.adding fit nests_visibility
  rintro taken ⟨restriction, _⟩ fit
  apply Continues.adding fit (orderly.types true)
  intro taken type fit
  exact .pure fun _ => fit

theorem nests_placedFields (orderly : Orderly nested) : Nests id (placedFields nested) :=
  .map (nests_inside _ _ (nests_separated _ collects_flatten (nests_placedField orderly))).nests

theorem nests_variant (orderly : Orderly nested) : Nests id (variant nested) := by
  apply Yields.of_start
  intro origin
  unfold variant
  apply Continues.pass (nests_outerAttributes orderly)
  intro taken attributes fit
  apply Continues.skipping fit (.of_yields nests_visibility)
  intro taken _ fit
  apply Continues.adding fit nests_identifier
  intro taken name fit
  apply Continues.quiet (quiet_sees _)
  intro curly
  extract_lets rest
  have goesOn : ∀ taken fields, Encloses taken (id attributes ++ [name] ++ id fields) →
      Continues origin taken [] (fun all parts => Encloses all (id parts)) (rest fields) := by
    intro taken fields fit
    apply Continues.skipping fit (idle_optionalSymbol _)
    intro taken given fit
    apply Continues.addingEither fit (fun _ => Nests.one (orderly.expressions true))
      (fun _ => Nests.none)
    intro taken value fit
    exact .pure fun _ => by grind
  split
  · apply Continues.quiet (quiet_sees _)
    exact fun _ => .adding fit (nests_namedFields orderly) goesOn
  apply Continues.quiet (quiet_sees _)
  intro round
  split
  · exact .adding fit (nests_placedFields orderly) goesOn
  · exact .pure_bind (goesOn taken [] (by grind))

theorem nests_macroItem (definesName : Bool) : NestsSome id (macroItem definesName) := by
  apply Yields.of_start
  intro origin
  unfold macroItem
  apply Continues.pass nests_plainPath
  intro path names fit
  apply Continues.pass (takesSome_symbol rfl)
  intro mark _ some
  have fit : Encloses ([] ++ path ++ mark) names := fit.append_left.append_right
  have some : [] ++ path ++ mark ≠ [] := by grind
  apply Continues.moved some
  apply Continues.quiet (quiet_sees _)
  intro named
  apply Continues.addingEither fit (fun _ => Nests.one nests_anyWord) (fun _ => Nests.none)
  intro taken name fit
  apply Continues.skipping fit (idle_takeWhere _ _)
  intro taken _ fit
  apply Continues.quiet quiet_get
  intro cursor
  split
  · apply Continues.skipping fit (idle_symbol _)
    exact fun taken _ fit => .pure fun _ => by grind
  · exact .pure fun _ => by grind

theorem nests_itemGroup {reader : Reader (List Outline)} (nests : Nests id reader)
    (orderly : Orderly nested) :
    NestsSome (fun parts => parts.1 ++ parts.2) (itemGroup nested reader) := by
  apply nests_inside
  apply Yields.of_start
  intro origin
  apply Continues.pass (nests_innerAttributes orderly)
  intro taken attributes fit
  apply Continues.adding fit (nests_everything collects_flatten nests)
  intro taken items fit
  exact .pure fun _ => fit

/-! ## Items of traits, implementations and foreign modules -/

/-- A macro call among the items, where one is allowed. -/
theorem nests_macroMember (allowed : Bool) (fit : Encloses taken attributes) :
    Continues origin taken [] (fun all parts => Encloses all parts) (do
      if allowed && (← sees macroNext) then
        return attributes ++ (← macroItem false)
      else
        Grammar.fail) := by
  apply Continues.quiet (quiet_sees _)
  intro macroCall
  split
  · apply Continues.adding fit (nests_macroItem false).nests
    exact fun taken parts fit => .pure fun _ => fit
  · exact .fail

theorem nests_traitItem (orderly : Orderly nested) : Nests id (traitItem nested) := by
  apply Yields.of_start
  intro origin
  unfold traitItem
  apply Continues.pass (nests_outerAttributes orderly)
  intro taken attributes fit
  apply Continues.skipping fit (.of_yields nests_visibility)
  rintro taken ⟨_, visible⟩ fit
  apply Continues.skipping fit (idle_optionalWord _)
  intro taken isDefault fit
  extract_lets shown constantFunction
  apply Continues.quiet (quiet_functionNext false)
  intro function
  apply Continues.quiet (quiet_sees _)
  intro marked
  split
  · apply Continues.adding fit (nests_signature orderly).nests
    intro taken head fit
    apply Continues.skipping fit (idle_optionalSymbol _)
    intro taken ended fit
    have none : Nests (fun parts => parts.1 ++ parts.2)
        (pure ([], []) : Reader (List Outline × List Outline)) := by
      apply Yields.of_start
      exact fun _ => .pure fun _ => encloses_nil.mpr trivial
    apply Continues.addingEither fit (fun _ => none)
      (fun _ => (nests_blockWithAttributes orderly).nests)
    rintro taken ⟨own, body⟩ fit
    dsimp only
    split
    · exact .pure fun _ => by grind
    · exact .pure fun _ => by grind
  apply Continues.skipping fit (idle_optionalWord _)
  intro taken constantWord fit
  split
  · apply Continues.adding fit (nests_constant orderly)
    intro taken constant fit
    split
    · exact .pure fun _ => fit
    · exact .pure fun _ => encloses_nil.mpr trivial
  apply Continues.quiet (quiet_sees _)
  intro typeWord
  split
  · apply Continues.adding fit (nests_typeDefinition _ orderly).nests
    intro taken type fit
    split
    · exact .pure fun _ => by grind
    · exact .pure fun _ => encloses_nil.mpr trivial
  exact nests_macroMember _ fit

theorem nests_implementationItem (orderly : Orderly nested) :
    Nests id (implementationItem nested) := by
  apply Yields.of_start
  intro origin
  unfold implementationItem
  apply Continues.pass (nests_outerAttributes orderly)
  intro taken attributes fit
  apply Continues.adding fit nests_visibility
  rintro taken ⟨restriction, visible⟩ fit
  apply Continues.skipping fit (idle_takeIf _ _)
  intro taken isDefault fit
  apply Continues.decided (quiet_functionNext false)
  · apply Continues.adding fit (nests_signature orderly).nests
    intro taken head fit
    apply Continues.skipping fit (idle_optionalSymbol _)
    intro taken ended fit
    split
    · exact .pure fun _ => encloses_nil.mpr trivial
    apply Continues.adding fit (nests_blockWithAttributes orderly).nests
    rintro taken ⟨own, body⟩ fit
    exact .pure fun _ => by grind
  apply Continues.skipping fit (idle_optionalWord _)
  intro taken constantWord fit
  apply Continues.choose
  · intro _
    apply Continues.adding fit (nests_constant orderly)
    intro taken constant fit
    split
    · exact .pure fun _ => fit
    · exact .pure fun _ => encloses_nil.mpr trivial
  intro _
  apply Continues.decided (quiet_sees _)
  · apply Continues.adding fit (nests_typeDefinition _ orderly).nests
    intro taken type fit
    split
    · exact .pure fun _ => encloses_nil.mpr trivial
    · exact .pure fun _ => by grind
  exact nests_macroMember _ (encloses_append.mp fit).1

theorem nests_foreignFunction (restriction : List Outline) (orderly : Orderly nested)
    (fit : Encloses taken (attributes ++ restriction)) :
    Continues origin taken [] (fun all parts => Encloses all parts)
      (foreignFunction nested attributes restriction) := by
  unfold foreignFunction
  apply Continues.skipping fit (idle_optionalWord _)
  intro taken _ fit
  apply Continues.skipping fit (idle_optionalWord _)
  intro taken _ fit
  apply Continues.skipping fit (idle_optionalWord _)
  intro taken isUnsafe fit
  apply Continues.passEither (fun _ => Idle.pure false) (fun _ => idle_optionalWord _)
  intro _ safe _
  apply Continues.adding (fit : Encloses taken (attributes ++ restriction)).append_right
    (nests_signature orderly).nests
  intro taken head fit
  apply Continues.quiet (quiet_sees _)
  intro curly
  split
  · apply Continues.skip (.of_yields (nests_blockWithAttributes orderly))
    exact fun _ _ => .pure fun _ => encloses_nil.mpr trivial
  · apply Continues.skipping fit (idle_symbol _)
    intro taken _ fit
    split
    · exact .pure fun _ => encloses_nil.mpr trivial
    · exact .pure fun _ => fit

theorem nests_foreignItem (orderly : Orderly nested) : Nests id (foreignItem nested) := by
  apply Yields.of_start
  intro origin
  unfold foreignItem
  apply Continues.pass (nests_outerAttributes orderly)
  intro taken attributes fit
  apply Continues.adding fit nests_visibility
  rintro taken ⟨restriction, visible⟩ fit
  apply Continues.decided (quiet_functionNext true)
  · exact nests_foreignFunction restriction orderly fit
  apply Continues.decided (quiet_sees _)
  · apply Continues.skipping fit (idle_takeIf _ _)
    intro taken isMarked fit
    apply Continues.skipping fit (idle_word _)
    intro taken _ fit
    apply Continues.skipping fit (idle_optionalWord _)
    intro taken _ fit
    apply Continues.adding fit nests_identifier
    intro taken name fit
    apply Continues.skipping fit (idle_symbol _)
    intro taken _ fit
    apply Continues.adding fit (orderly.types true)
    intro taken type fit
    apply Continues.skipping fit (idle_optionalSymbol _)
    intro taken hasValue fit
    extract_lets rest
    have goesOn : ∀ taken done, Encloses taken (attributes ++ restriction ++ [name] ++ [type]) →
        Continues origin taken [] (fun all parts => Encloses all parts) (rest done) := by
      intro taken _ fit
      apply Continues.skipping fit (idle_symbol _)
      intro taken _ fit
      split
      · exact .pure fun _ => encloses_nil.mpr trivial
      · exact .pure fun _ => by grind
    split
    · exact .skipping fit (.of_yields (orderly.expression true)) fun taken _ fit =>
        goesOn taken () fit
    · exact goesOn taken () fit
  apply Continues.decided (quiet_sees _)
  · apply Continues.adding fit (nests_typeDefinition _ orderly).nests
    intro taken type fit
    split
    · exact .pure fun _ => encloses_nil.mpr trivial
    · exact .pure fun _ => by grind
  exact nests_macroMember _ (encloses_append.mp fit).1

/-! ## Items -/

/-- What an item shows without the attributes before it. -/
def ItemParts.parts (item : ItemParts) : List Outline :=
  item.attributes ++ item.children

/-- An item takes something, and what it shows fits into that. -/
def Itemizes (taken : List TokenTree) (item : ItemParts) : Prop :=
  taken ≠ [] ∧ Encloses taken item.parts

/-- What an item shows fits into what is taken. -/
def Fitting (taken : List TokenTree) (item : ItemParts) : Prop :=
  Encloses taken item.parts

theorem Fitting.verbatim : Continues origin taken [] Fitting (pure verbatimItem) :=
  .pure fun _ => encloses_nil.mpr trivial

/-- After its keyword an item has taken something. -/
theorem Itemizes.after {α : Type} {reader : Reader α} {next : α → Reader ItemParts}
    (fit : Encloses taken shown) (first : TakesSome reader)
    (later : ∀ all value, Encloses all shown → Continues origin all [] Fitting (next value)) :
    Continues origin taken [] Itemizes (reader >>= next) := by
  apply Continues.pass first
  intro more value some
  apply Continues.moved (List.append_ne_nil_of_right_ne_nil taken some)
  exact later _ value fit.append_right

variable {restriction : List Outline}

theorem itemizes_functionItem (orderly : Orderly nested) (fit : Encloses taken restriction) :
    Continues origin taken [] Itemizes (functionItem nested restriction) := by
  unfold functionItem
  apply Continues.pass (nests_signature orderly)
  rintro more head ⟨some, headFits⟩
  have both : Encloses (taken ++ more) (restriction ++ head) := by grind
  apply Continues.moved (List.append_ne_nil_of_right_ne_nil taken some)
  apply Continues.skipping both (idle_optionalSymbol _)
  intro taken ended both
  split
  · exact Fitting.verbatim
  apply Continues.adding both (nests_blockWithAttributes orderly).nests
  rintro taken ⟨attributes, body⟩ fit
  exact .pure fun _ => by grind [ItemParts.parts]

theorem itemizes_externCrate (fit : Encloses taken restriction) :
    Continues origin taken [] Itemizes (externCrate restriction) := by
  unfold externCrate
  apply Itemizes.after fit (takesSome_word _)
  intro taken _ fit
  apply Continues.skipping fit (idle_word _)
  intro taken _ fit
  apply Continues.adding fit
    (nests_nameWhere (seesWords_identifierNext.either (seesWords_wordNext _)))
  intro taken name fit
  apply Continues.skipping fit (idle_optionalWord _)
  intro taken renamed fit
  apply Continues.addingEither fit (fun _ => Nests.one nests_constantName) (fun _ => Nests.none)
  intro taken rename fit
  apply Continues.skipping fit (idle_symbol _)
  intro taken _ fit
  exact .pure fun _ => by grind [Fitting, ItemParts.parts]

theorem itemizes_foreignModule (orderly : Orderly nested) :
    Continues origin taken [] Itemizes (foreignModule nested) := by
  unfold foreignModule
  apply Continues.skip (idle_optionalWord _)
  intro _ _
  apply Continues.quiet (quiet_guardThat _)
  intro _
  apply Continues.skip (.of_yields yields_optionalLinkage)
  intro _ _
  apply Continues.pass (nests_itemGroup (nests_foreignItem orderly) orderly)
  rintro _ ⟨attributes, children⟩ ⟨some, fit⟩
  exact .pure fun _ => ⟨List.append_ne_nil_of_right_ne_nil _ some, fit.append_left⟩

theorem nests_useTree (root : Bool) (orderly : Orderly nested) :
    Nests (·.getD []) (useTree nested root) := by
  apply Yields.of_start
  intro origin
  unfold useTree
  apply Continues.decided (quiet_sees _)
  · apply Continues.pass nests_anyWord
    intro taken name fit
    apply Continues.skip (idle_optionalSymbol _)
    intro _ goesOn
    split
    · apply Continues.pass (orderly.useTree false)
      intro _ tree treeFits
      cases tree with
      | none => exact .pure fun _ => encloses_nil.mpr trivial
      | some names => exact .pure fun _ => by grind
    apply Continues.skip (idle_optionalWord _)
    intro _ renamed
    split
    · apply Continues.pass nests_constantName
      exact fun _ rename renameFits => .pure fun _ => by grind
    · exact .pure fun _ => by grind
  apply Continues.skip (idle_optionalSymbol _)
  intro _ everything
  split
  · exact .pure fun _ => encloses_nil.mpr trivial
  have inner : Nests (fun tree : Option (List Outline) => tree.getD []) (do
      let rooted ← if root then optionalSymbol "::" else pure false
      let tree ← nested (.useTree (root && !rooted))
      return if rooted then none else tree) := by
    apply Yields.of_start
    intro origin
    apply Continues.passEither (fun _ => idle_optionalSymbol _) (fun _ => Idle.pure _)
    intro _ rooted _
    apply Continues.pass (orderly.useTree _)
    intro _ tree fit
    apply Continues.pure
    intro _
    split
    · exact encloses_nil.mpr trivial
    · exact fit.append_left
  apply Continues.pass (nests_inside _ _ (nests_separated _ collects_useTrees inner)).nests
  intro _ trees fit
  apply Continues.pure
  intro _
  cases whole : trees.foldr
      (fun tree rest => tree.bind fun names => rest.map (names ++ ·)) (some []) with
  | none => exact encloses_nil.mpr trivial
  | some names =>
      rw [foldr_useTrees trees names whole]
      exact fit.append_left

theorem itemizes_useItem (orderly : Orderly nested) (fit : Encloses taken restriction) :
    Continues origin taken [] Itemizes (useItem nested restriction) := by
  unfold useItem
  apply Itemizes.after fit (takesSome_word _)
  intro taken _ fit
  apply Continues.skipping fit (idle_optionalSymbol _)
  intro taken rooted fit
  apply Continues.adding fit (orderly.useTree _)
  intro taken tree fit
  apply Continues.skipping fit (idle_symbol _)
  intro taken _ fit
  cases tree with
  | none => exact Fitting.verbatim
  | some names => exact .pure fun _ => fit

theorem itemizes_staticItem (orderly : Orderly nested) (fit : Encloses taken restriction) :
    Continues origin taken [] Itemizes (staticItem nested restriction) := by
  unfold staticItem
  apply Itemizes.after fit (takesSome_word _)
  intro taken _ fit
  apply Continues.skipping fit (idle_optionalWord _)
  intro taken _ fit
  apply Continues.adding fit nests_identifier
  intro taken name fit
  apply Continues.skipping fit (idle_optionalSymbol _)
  intro taken untyped fit
  split
  · apply Continues.skip (.of_yields (orderly.expression true))
    intro _ _
    apply Continues.skip (idle_symbol _)
    exact fun _ _ => Fitting.verbatim
  apply Continues.skipping fit (idle_symbol _)
  intro taken _ fit
  apply Continues.adding fit (orderly.types true)
  intro taken type fit
  apply Continues.skipping fit (idle_optionalSymbol _)
  intro taken ended fit
  split
  · exact Fitting.verbatim
  apply Continues.skipping fit (idle_symbol _)
  intro taken _ fit
  apply Continues.adding fit (orderly.expressions true)
  intro taken value fit
  apply Continues.skipping fit (idle_symbol _)
  intro taken _ fit
  exact .pure fun _ => by grind [Fitting, ItemParts.parts]

theorem itemizes_constItem (orderly : Orderly nested) (fit : Encloses taken restriction) :
    Continues origin taken [] Itemizes (constItem nested restriction) := by
  unfold constItem
  apply Itemizes.after fit (takesSome_word _)
  intro taken _ fit
  apply Continues.adding fit (nests_constant orderly)
  intro taken constant fit
  split
  · exact .pure fun _ => fit
  · exact Fitting.verbatim

theorem itemizes_moduleItem (orderly : Orderly nested) (fit : Encloses taken restriction) :
    Continues origin taken [] Itemizes (moduleItem nested restriction) := by
  unfold moduleItem
  apply Continues.skipping fit (idle_optionalWord _)
  intro taken _ fit
  apply Itemizes.after fit (takesSome_word _)
  intro taken _ fit
  apply Continues.adding fit
    (nests_nameWhere (seesWords_identifierNext.either (seesWords_wordNext _)))
  intro taken name fit
  apply Continues.skipping fit (idle_optionalSymbol _)
  intro taken ended fit
  split
  · exact .pure fun _ => fit
  have items : Nests id (do return [← nested .item]) := Nests.one (nests_of_carries orderly.item)
  apply Continues.adding fit (nests_itemGroup items orderly).nests
  rintro taken ⟨attributes, items⟩ fit
  exact .pure fun _ => by grind [Fitting, ItemParts.parts]

theorem itemizes_typeItem (orderly : Orderly nested) (fit : Encloses taken restriction) :
    Continues origin taken [] Itemizes (typeItem nested restriction) := by
  unfold typeItem
  apply Continues.pass (nests_typeDefinition _ orderly)
  rintro more type ⟨some, typeFits⟩
  have both : Encloses (taken ++ more)
      (restriction ++ (type.name ++ type.bounds ++ type.definition)) := by
    grind
  apply Continues.moved (List.append_ne_nil_of_right_ne_nil taken some)
  split
  · exact Fitting.verbatim
  · exact .pure fun _ => by grind [ItemParts.parts]

theorem itemizes_structItem (orderly : Orderly nested) (fit : Encloses taken restriction) :
    Continues origin taken [] Itemizes (structItem nested restriction) := by
  unfold structItem
  apply Itemizes.after fit (takesSome_word _)
  intro taken _ fit
  apply Continues.adding fit nests_identifier
  intro taken name fit
  apply Continues.adding fit (nests_genericParameters orderly)
  rintro taken ⟨generics, _⟩ fit
  apply Continues.adding fit (nests_conditions orderly)
  rintro taken ⟨early, given⟩ fit
  apply Continues.quiet (quiet_sees _)
  intro round
  extract_lets finish
  have finishes : ∀ taken late fields,
      Encloses taken (restriction ++ [name] ++ generics ++ early ++ late ++ fields) →
        Continues origin taken [] Fitting (finish (late, fields)) :=
    fun taken late fields fit => .pure fun _ => by grind [Fitting, ItemParts.parts]
  split
  · apply Continues.quiet (quiet_sees _)
    intro _
    apply Continues.adding fit (nests_placedFields orderly)
    intro taken fields fit
    apply Continues.adding fit (nests_conditions orderly)
    rintro taken ⟨late, _⟩ fit
    apply Continues.skipping fit (idle_symbol _)
    intro taken _ fit
    exact .pure_bind (finishes taken late fields (by grind))
  apply Continues.quiet (quiet_sees _)
  intro curly
  split
  · apply Continues.adding fit (nests_namedFields orderly)
    intro taken fields fit
    exact .pure_bind (finishes taken [] fields (by grind))
  · apply Continues.skipping fit (idle_symbol _)
    intro taken _ fit
    exact .pure_bind (finishes taken [] [] (by grind))

theorem itemizes_enumItem (orderly : Orderly nested) (fit : Encloses taken restriction) :
    Continues origin taken [] Itemizes (enumItem nested restriction) := by
  unfold enumItem
  apply Itemizes.after fit (takesSome_word _)
  intro taken _ fit
  apply Continues.adding fit nests_identifier
  intro taken name fit
  apply Continues.adding fit (nests_genericParameters orderly)
  rintro taken ⟨generics, _⟩ fit
  apply Continues.adding fit (nests_conditions orderly)
  rintro taken ⟨conditions, _⟩ fit
  apply Continues.adding fit
    (nests_inside _ _ (nests_separated _ collects_flatten (nests_variant orderly))).nests
  intro taken variants fit
  exact .pure fun _ => by grind [Fitting, ItemParts.parts]

theorem itemizes_unionItem (orderly : Orderly nested) (fit : Encloses taken restriction) :
    Continues origin taken [] Itemizes (unionItem nested restriction) := by
  unfold unionItem
  apply Itemizes.after fit (takesSome_word _)
  intro taken _ fit
  apply Continues.adding fit nests_identifier
  intro taken name fit
  apply Continues.adding fit (nests_genericParameters orderly)
  rintro taken ⟨generics, _⟩ fit
  apply Continues.adding fit (nests_conditions orderly)
  rintro taken ⟨conditions, _⟩ fit
  apply Continues.adding fit (nests_namedFields orderly)
  intro taken fields fit
  exact .pure fun _ => by grind [Fitting, ItemParts.parts]

theorem fitting_traitBody {head generics : List Outline} (orderly : Orderly nested)
    (fit : Encloses taken (head ++ generics)) :
    Continues origin taken [] Fitting (traitBody nested head generics) := by
  unfold traitBody
  apply Continues.skipping fit (idle_optionalSymbol _)
  intro taken bounded fit
  apply Continues.addingEither fit (fun _ => nests_boundsUntil _ orderly) (fun _ => Nests.none)
  intro taken bounds fit
  apply Continues.adding fit (nests_conditions orderly)
  rintro taken ⟨conditions, _⟩ fit
  apply Continues.adding fit (nests_itemGroup (nests_traitItem orderly) orderly).nests
  rintro taken ⟨attributes, items⟩ fit
  exact .pure fun _ => by grind [Fitting, ItemParts.parts]

theorem itemizes_markedTrait (orderly : Orderly nested) (fit : Encloses taken restriction) :
    Continues origin taken [] Itemizes (markedTrait nested restriction) := by
  unfold markedTrait
  apply Continues.skipping fit (idle_optionalWord _)
  intro taken _ fit
  apply Continues.skipping fit (idle_optionalWord _)
  intro taken _ fit
  apply Itemizes.after fit (takesSome_word _)
  intro taken _ fit
  apply Continues.adding fit nests_identifier
  intro taken name fit
  apply Continues.adding fit (nests_genericParameters orderly)
  rintro taken ⟨generics, _⟩ fit
  exact fitting_traitBody orderly fit

theorem itemizes_traitOrAlias (orderly : Orderly nested) (fit : Encloses taken restriction) :
    Continues origin taken [] Itemizes (traitOrAlias nested restriction) := by
  unfold traitOrAlias
  apply Itemizes.after fit (takesSome_word _)
  intro taken _ fit
  apply Continues.adding fit nests_identifier
  intro taken name fit
  apply Continues.adding fit (nests_genericParameters orderly)
  rintro taken ⟨generics, _⟩ fit
  apply Continues.decided (quiet_sees _)
  · exact fitting_traitBody orderly fit
  apply Continues.skipping fit (idle_symbol _)
  intro taken _ fit
  apply Continues.adding fit (nests_boundsUntil _ orderly)
  intro taken bounds fit
  apply Continues.adding fit (nests_conditions orderly)
  rintro taken ⟨conditions, _⟩ fit
  apply Continues.skipping fit (idle_symbol _)
  intro taken _ fit
  exact .pure fun _ => by grind [Fitting, ItemParts.parts]

/-- The path of a trait shows what the type shows that it was read as. -/
theorem itemizes_implementation (visible : Bool) (orderly : Orderly nested) :
    Continues origin taken [] Itemizes (implementation nested visible) := by
  unfold implementation
  apply Continues.skip (idle_optionalWord _)
  intro _ _
  apply Continues.skip (idle_optionalWord _)
  intro _ _
  apply Itemizes.after (encloses_nil.mpr trivial) (takesSome_word _)
  intro taken _ fit
  apply Continues.quiet (quiet_sees _)
  intro generic
  apply Continues.addingEither fit (fun _ => nests_genericParameters orderly)
    (fun _ => nests_noConditions)
  rintro taken ⟨generics, _⟩ fit
  apply Continues.quiet (quiet_sees _)
  intro isConstant
  extract_lets more
  have goesOn : ∀ taken done, Encloses taken generics →
      Continues origin taken [] Fitting (more done) := by
    intro taken _ fit
    apply Continues.quiet quiet_here
    intro start
    apply Continues.skipping fit (idle_takeIf _ _)
    intro taken negative fit
    apply Continues.adding fit (orderly.types true)
    intro taken first fit
    apply Continues.skipping fit (idle_optionalWord _)
    intro taken isFor fit
    extract_lets isTrait finish
    have finishes : ∀ taken about, Encloses taken (generics ++ about) →
        Continues origin taken [] Fitting (finish about) := by
      intro taken about fit
      apply Continues.adding fit (nests_conditions orderly)
      rintro taken ⟨conditions, _⟩ fit
      apply Continues.adding fit (nests_itemGroup (nests_implementationItem orderly) orderly).nests
      rintro taken ⟨attributes, items⟩ fit
      dsimp only
      split
      · exact Fitting.verbatim
      · exact .pure fun _ => by grind [Fitting, ItemParts.parts]
    split
    · apply Continues.adding fit (orderly.types true)
      intro taken self fit
      apply Continues.pure_bind
      apply finishes
      split
      · next isPath =>
        have isType : first.form? ≠ some (.statement .expression) := by
          intro same
          simp [isTrait, same] at isPath
        have children : Encloses taken first.children := by
          apply Encloses.children _ isType
          grind
        grind
      · grind
    split
    · exact .failAt_bind start
    · exact .pure_bind (finishes taken [first] fit)
  split
  · apply Continues.skipping fit (idle_optionalSymbol _)
    intro taken _ fit
    exact .skipping fit (idle_word _) fun taken _ fit => goesOn taken () fit
  · exact goesOn taken () fit

theorem itemizes_macroDefinition : Continues origin taken [] Itemizes macroDefinition := by
  unfold macroDefinition
  apply Itemizes.after (encloses_nil.mpr trivial) (takesSome_word _)
  intro _ _ _
  apply Continues.skip (.of_yields nests_identifier)
  intro _ _
  apply Continues.skip (idle_takeIf _ _)
  intro _ _
  apply Continues.skip (idle_takeWhere _ _)
  exact fun _ _ => Fitting.verbatim

theorem itemizes_externItem (visible : Bool) (start : Nat) (orderly : Orderly nested)
    (fit : Encloses taken restriction) :
    Continues origin taken [] Itemizes (externItem nested restriction visible start) := by
  unfold externItem
  apply Continues.decided (quiet_sees _) (itemizes_externCrate fit)
  apply Continues.decided (quiet_sees _)
  · split
    · exact .failAt start
    · exact itemizes_foreignModule orderly
  apply Continues.skip (idle_word _)
  intro _ _
  apply Continues.skip (idle_takeIf _ _)
  exact fun _ _ => .fail

theorem itemizes_unsafeItem (visible : Bool) (start : Nat) (orderly : Orderly nested)
    (fit : Encloses taken restriction) :
    Continues origin taken [] Itemizes (unsafeItem nested restriction visible start) := by
  unfold unsafeItem
  extract_lets traitNext after
  apply Continues.decided (quiet_sees _) (itemizes_markedTrait orderly fit)
  apply Continues.decided (quiet_sees _) (itemizes_implementation visible orderly)
  apply Continues.decided (quiet_sees _)
  · split
    · exact .failAt start
    · exact itemizes_foreignModule orderly
  apply Continues.decided (quiet_sees _) (itemizes_moduleItem orderly fit)
  apply Continues.skip (idle_word _)
  exact fun _ _ => .fail

theorem itemizes_bareItem (orderly : Orderly nested) : Yields Itemizes (bareItem nested) := by
  apply Yields.of_start
  intro origin
  unfold bareItem
  apply Continues.quiet quiet_here
  intro start
  apply Continues.pass nests_visibility
  rintro taken ⟨restriction, visible⟩ fit
  apply Continues.decided (quiet_functionNext false) (itemizes_functionItem orderly fit)
  apply Continues.decided (quiet_sees _) (itemizes_externItem visible start orderly fit)
  apply Continues.decided (quiet_sees _) (itemizes_useItem orderly fit)
  apply Continues.decided (quiet_sees _) (itemizes_staticItem orderly fit)
  apply Continues.decided (quiet_sees _) (itemizes_constItem orderly fit)
  apply Continues.decided (quiet_sees _) (itemizes_unsafeItem visible start orderly fit)
  apply Continues.decided (quiet_sees _) (itemizes_moduleItem orderly fit)
  apply Continues.decided (quiet_sees _) (itemizes_typeItem orderly fit)
  apply Continues.decided (quiet_sees _) (itemizes_structItem orderly fit)
  apply Continues.decided (quiet_sees _) (itemizes_enumItem orderly fit)
  apply Continues.decided (quiet_sees _) (itemizes_unionItem orderly fit)
  apply Continues.decided (quiet_sees _) (itemizes_traitOrAlias orderly fit)
  apply Continues.decided (quiet_sees _) (itemizes_markedTrait orderly fit)
  apply Continues.decided (quiet_sees _) (itemizes_implementation visible orderly)
  apply Continues.decided (quiet_sees _) itemizes_macroDefinition
  apply Continues.quiet (quiet_sees _)
  intro isCall
  apply Continues.choose
  · intro _
    apply Continues.pass (nests_macroItem true)
    rintro _ children ⟨some, fit⟩
    exact .pure fun _ => ⟨List.append_ne_nil_of_right_ne_nil _ some, fit.append_left⟩
  · exact fun _ => .fail

/-- An item is an element of the trees that it takes, its attributes among them. -/
theorem carries_item (orderly : Orderly nested) : Yields Carries (item nested) := by
  apply Yields.of_start
  intro origin
  unfold item
  apply Continues.atStart
  apply Continues.pass (nests_outerAttributes orderly)
  intro front attributes attributesFit
  apply Continues.pass (itemizes_bareItem orderly)
  rintro more ⟨form, inner, children⟩ ⟨some, fit⟩
  extract_lets kept
  have some : [] ++ front ++ more ≠ [] := List.append_ne_nil_of_right_ne_nil _ some
  have whole : Encloses ([] ++ front ++ more) (attributes ++ inner ++ children) := by
    grind [ItemParts.parts]
  apply Continues.spanned some
  apply Continues.pure
  intro _
  apply carries_element some rfl
  · dsimp only [kept]
    split
    · exact encloses_nil.mpr trivial
    · exact (encloses_append.mp whole).1
  · exact (encloses_append.mp whole).2

end ProgramGraph.Grammar
