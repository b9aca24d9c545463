import ProgramGraph.Grammar.Item
import ProgramGraph.Proofs.Grammar.Statement

/-!
# What items show

An item shows what it takes, and its name stands where its run declares it: after the first of its
keyword, or after the word for changes that follows this.  Only the path of a visibility with
brackets is shown before the name.
-/

namespace ProgramGraph.Grammar

open Source Outline

variable {nested : Nested} {origin : Cursor} {taken more : List TokenTree}
  {blocks rest : List (List Outline)}

/-! ## Visibility -/

/-- Trees before the keyword of an item: no words but that of a visibility, and the path of one
with brackets. -/
structure Opens (visible : List Span) (taken : List TokenTree) : Prop where
  words : ∀ word ∈ TokenTree.words taken, word.text = "pub"
  restricted : visible ≠ [] → TokenTree.IsRestricted taken

theorem yields_restriction :
    Yields
      (fun taken names => ∃ opening closing inner,
        taken = [.group (some .round) opening closing inner] ∧
          (∃ visible : List Span, names = visible.map .name) ∧ Held taken [names])
      restriction := by
  have path : Yields
      (fun taken names => (∃ visible : List Span, names = visible.map .name) ∧ Held taken [names])
      (do
        if ← sees (oneOfWords ["crate", "self", "super"]) then
          let name ← anyWord
          if ← atEnd then return [name] else fail
        else
          word "in"
          plainPath) := by
    apply Yields.of_start
    intro origin
    apply Continues.quiet (quiet_sees _)
    intro place
    split
    · apply Continues.named seesWords_anyWordNext
      intro text span rest _
      apply Continues.quiet quiet_atEnd
      intro ended
      split
      · exact .pure fun held => ⟨⟨[span], rfl⟩, held⟩
      · exact .fail
    · apply Continues.skip (idle_word _)
      intro _ _
      exact .finish yields_plainPath fun more names held known => ⟨known.1, held.add known.2⟩
  intro before value after done
  rcases yields_inside .round path before value after done with
    ⟨_, takes, opening, closing, inner, more, rfl, names, held⟩
  exact ⟨_, takes, opening, closing, _, rfl, names, held.in_group .round opening closing more⟩

/-- A visibility opens an item. -/
theorem yields_visibility :
    Yields
      (fun taken answer => ∃ visible : List Span, answer.1 = visible.map .name ∧
        Opens visible taken ∧ Held taken [answer.1])
      visibility := by
  apply Yields.of_start
  intro origin
  unfold visibility
  apply Continues.pass (yields_optionalWord _)
  intro more given takes
  rcases takes with ⟨rfl, rfl⟩ | ⟨span, rfl, rfl⟩
  · exact .pure fun _ => ⟨[], rfl, ⟨by simp, absurd rfl⟩, .bare _⟩
  rw [if_pos rfl]
  apply Continues.quiet (quiet_sees _)
  intro restricted
  split
  · apply Continues.pass yields_restriction
    rintro _ names ⟨opening, closing, inner, rfl, ⟨visible, rfl⟩, held⟩
    refine .pure fun _ =>
      ⟨visible, rfl, ⟨by simp [TokenTree.words], fun _ => ?_⟩, (Held.nothing _).add held⟩
    exact ⟨[], span, opening, closing, inner, [], rfl⟩
  · exact .pure fun _ => ⟨[], rfl, ⟨by simp, absurd rfl⟩, .bare _⟩

theorem reads_visibility : Reads (·.1) [] visibility :=
  .of_yields yields_visibility fun _ _ known => known.choose_spec.2.2

/-- An item of a form declares a word, and the path of its visibility has brackets. -/
structure Announced (form : ItemForm) (visible : List Span) (word : Leaf)
    (taken : List TokenTree) : Prop where
  declared : (Form.item form).declared? taken = some word
  restricted : visible ≠ [] → TokenTree.IsRestricted taken

theorem Announced.append {form : ItemForm} {visible : List Span} {word : Leaf}
    (announced : Announced form visible word taken) (more : List TokenTree) :
    Announced form visible word (taken ++ more) where
  declared := Form.declared?_append announced.declared more
  restricted some := (announced.restricted some).append more

theorem keyword_not_pub {form : ItemForm} {keyword : String}
    (announced : (Form.item form).keyword? = some keyword) : keyword ≠ "pub" := by
  cases form <;> cases announced <;> decide

/-- Trees after which a keyword would announce the name of an item. -/
structure Awaits (keyword : String) (visible : List Span) (taken : List TokenTree) : Prop where
  words : ∀ word ∈ TokenTree.words taken, word.text ≠ keyword
  restricted : visible ≠ [] → TokenTree.IsRestricted taken

theorem Awaits.append {keyword : String} {visible : List Span}
    (awaits : Awaits keyword visible taken)
    (others : ∀ word ∈ TokenTree.words more, word.text ≠ keyword) :
    Awaits keyword visible (taken ++ more) where
  words word member := by
    rw [TokenTree.words_append] at member
    rcases List.mem_append.mp member with member | member
    · exact awaits.words word member
    · exact others word member
  restricted some := (awaits.restricted some).append more

theorem Opens.awaits (form : ItemForm) {keyword : String} {visible : List Span}
    (opens : Opens visible taken) (announced : (Form.item form).keyword? = some keyword) :
    Awaits keyword visible taken where
  words word member := by
    rw [opens.words word member]
    exact (keyword_not_pub announced).symm
  restricted := opens.restricted

/-- After its keyword an item declares the next word, perhaps after one for changes. -/
theorem Awaits.announce (form : ItemForm) {keyword text : String} {span : Span}
    {visible : List Span} (place : Span) (between : List TokenTree)
    (awaits : Awaits keyword visible taken) (announced : (Form.item form).keyword? = some keyword)
    (marks : ∀ word ∈ TokenTree.words between, word.text = "ref" ∨ word.text = "mut")
    (notMark : text ≠ "ref" ∧ text ≠ "mut") :
    Announced form visible ⟨.word, text, span⟩
      (taken ++ [.leaf ⟨.word, keyword, place⟩] ++ between ++ [.leaf ⟨.word, text, span⟩]) where
  declared := by
    have declared : (Form.item form).declared? (taken ++ .leaf ⟨.word, keyword, place⟩ ::
        (between ++ .leaf ⟨.word, text, span⟩ :: [])) = some ⟨.word, text, span⟩ :=
      Form.declared?_item announced awaits.words marks notMark.1 notMark.2
    simpa using declared
  restricted some := by
    rw [List.append_assoc, List.append_assoc]
    exact (awaits.restricted some).append _

/-- Parts begin with the name that an item of a form declares, if its visibility was read
before. -/
def Heads (form : ItemForm) (before all : List TokenTree) (parts : List Outline) : Prop :=
  ∃ word later, parts = .name word.span :: later ∧
    ∀ visible, Opens visible before → Announced form visible word all

/-! ## Functions -/

theorem quiet_functionNext (safe : Bool) : Quiet (functionNext safe) := by
  intro before value after done
  rcases run_bind_eq_ok_iff.mp done with ⟨found, middle, looked, rest⟩
  cases quiet_lookAhead _ _ _ _ looked
  cases rest
  rfl

/-- A lifetime is repeated by an element that begins with it, whatever else the element shows. -/
theorem rearranges_borrowed {form : Form} {lifetime : List Outline} {whole own : Span}
    (plain : form.declares = false) (known : lifetime = [] ∨ ∃ span, lifetime = [.name span]) :
    Rearranges ([.name own] :: lifetime :: blocks)
      ((lifetime ++ [.element form whole [] (lifetime ++
        [.element (.type (.path false true)) own [] [.name own]])]) :: blocks) := by
  rcases known with rfl | ⟨span, rfl⟩
  · constructor <;> simp [plain]
  · constructor
    · intro mark
      by_cases same : span = own
      · simp only [same, tallies_cons, List.singleton_append, tallyAll, isRepeatedBy, repeats,
          leadingName?, tally]
        grind
      · have other : own ≠ span := Ne.symm same
        simp only [tallies_cons, List.singleton_append, tallyAll, isRepeatedBy, repeats,
          leadingName?, tally]
        grind
    · simp [plain]

/-- A lifetime before a borrowed receiver is repeated by the type that it is made of. -/
theorem reads_receiver (faithful : Faithful nested) : Reads (·.1) [] (receiver nested) := by
  unfold receiver
  apply Reads.after idle_here
  intro start
  apply Reads.after (idle_optionalSymbol _)
  intro borrowed origin taken blocks
  extract_lets rest
  have reads : ∀ taken lifetime, (lifetime = [] ∨ ∃ span, lifetime = [.name span]) →
      Continues origin taken (lifetime :: blocks) (Gives (·.1) blocks) (rest lifetime) := by
    intro taken lifetime known
    apply Continues.skip (idle_optionalWord _)
    intro _ _
    apply Continues.skip idle_here
    intro _ place
    apply Continues.named (seesWords_wordNext _)
    intro text span _ _
    apply Continues.skip (idle_whereAllowed _ (idle_optionalSymbol _))
    intro _ typed
    split
    · apply Continues.read (faithful.type true)
      intro _ type
      apply Continues.give
      constructor <;> simp <;> grind
    extract_lets self
    split
    · rw [element, bind_assoc]
      apply Continues.skip (.of_quiet (quiet_spanFrom _))
      intro _ whole
      apply Continues.pure_bind
      apply Continues.give
      exact rearranges_borrowed rfl known
    · apply Continues.give
      constructor <;> simp [self]
  split
  · exact .yield yields_optionalLifetime (fun _ _ known => known.1)
      fun _ lifetime known => reads _ lifetime known.2
  · exact .pure_bind ((reads _ [] (.inl rfl)).rearrange (.empty _))

/-- What a parameter shows. -/
def Parameter.parts : Parameter → List Outline
  | receiver parts _ => parts
  | typed parts => parts
  | variadic parts => parts

theorem reads_parameter (attributes : List Outline) (faithful : Faithful nested) :
    Reads Parameter.parts [attributes] (parameter nested attributes) := by
  intro origin taken blocks
  unfold parameter
  apply Continues.skip (idle_optionalSymbol _)
  intro _ variadic
  split
  · exact .give (.refl _)
  apply Continues.read (reads_attempt (reads_receiver faithful))
  intro _ answer
  cases answer with
  | some answer =>
      rcases answer with ⟨parts, place⟩
      exact .give (.append _ _ _)
  | none =>
      apply Continues.skip (idle_sees _)
      intro _ unnamed
      split
      · apply Continues.skip (.of_quiet quiet_get)
        intro _ cursor
        extract_lets first pattern
        have shown :
            Rearranges ([] :: attributes :: blocks) ([pattern] :: attributes :: blocks) := by
          constructor <;> simp [pattern]
        apply Continues.ascribed faithful shown
        intro _ type
        exact .give (.refl _)
      · apply Continues.read faithful.pattern
        intro _ pattern
        apply Continues.skip (idle_symbol _)
        intro _ _
        apply Continues.skip (idle_optionalSymbol _)
        intro _ variadic
        split
        · exact .give ((Rearranges.keep _ _ _).trans (.append _ _ _))
        · apply Continues.ascribed faithful (.keep _ _ _)
          intro _ type
          exact .give (.refl _)

theorem reads_parameters (faithful : Faithful nested) : Reads id [] (parameters nested) := by
  intro origin taken blocks
  unfold parameters
  apply Continues.iterate fun state => state.1.reverse.flatten
  · rfl
  · rintro ⟨found, done⟩ origin taken blocks
    apply Continues.skip (.of_quiet quiet_atEnd)
    intro _ ended
    split
    · exact .give (.refl _)
    apply Continues.read (reads_outerAttributes faithful)
    intro _ attributes
    apply Continues.readFrom (reads_parameter attributes faithful) (.refl _)
    intro _ parameter
    extract_lets rest
    have reads : ∀ taken parts last,
        Continues origin taken (parts :: found.reverse.flatten :: blocks)
          (Gives (fun answer => (answer.getD (found, done)).1.reverse.flatten) blocks)
          (rest (parts, last)) := by
      intro taken parts last
      have added : Rearranges (parts :: found.reverse.flatten :: blocks)
          ((parts :: found).reverse.flatten :: blocks) := by
        constructor <;> simp <;> grind
      apply Continues.separator quiet_atEnd
      exact fun _ => .give added
    cases parameter with
    | receiver parts place =>
        dsimp only
        split
        · exact .pure_bind (reads _ parts false)
        · exact .failAt_bind place
    | typed parts => exact .pure_bind (reads _ parts false)
    | variadic parts => exact .pure_bind (reads _ parts true)
  · rintro _ ⟨found, _⟩
    exact .give (.refl _)

theorem wordless_string {taken : List TokenTree} {took : Bool}
    (taken? : taken = [] ∧ took = false ∨
      ∃ tree rest, taken = [tree] ∧ took = true ∧ stringNext (tree :: rest) = true) :
    TokenTree.words taken = [] := by
  rcases taken? with ⟨rfl, _⟩ | ⟨tree, rest, rfl, _, looked⟩
  · rfl
  · unfold stringNext at looked
    split at looked
    · next same =>
      cases same
      rfl
    · cases looked

theorem yields_optionalLinkage :
    Yields (fun taken _ => ∀ word ∈ TokenTree.words taken, word.text = "extern")
      optionalLinkage := by
  apply Yields.of_start
  intro origin
  unfold optionalLinkage
  apply Continues.pass (yields_optionalWord _)
  intro linkage given isExtern
  split
  · apply Continues.pass (yields_takeIf_one _)
    intro text _ isString
    apply Continues.pure
    rw [TokenTree.words_append, wordless_string isString, List.append_nil]
    exact fun _ => isExtern.words
  · exact .pure fun _ => isExtern.words

/-- The first of the keyword for functions comes last. -/
theorem yields_functionWords :
    Yields
      (fun taken _ => ∃ before place, taken = before ++ [.leaf ⟨.word, "fn", place⟩] ∧
        ∀ word ∈ TokenTree.words before, word.text ≠ "fn")
      functionWords := by
  apply Yields.of_start
  intro origin
  unfold functionWords
  apply Continues.pass (yields_optionalWord _)
  intro first _ isConst
  apply Continues.pass (yields_optionalWord _)
  intro second _ isAsync
  apply Continues.pass (yields_optionalWord _)
  intro third _ isUnsafe
  apply Continues.pass yields_optionalLinkage
  intro linkage _ isExtern
  apply Continues.finish (yields_word _)
  rintro _ _ _ ⟨place, rfl⟩
  refine ⟨[] ++ first ++ second ++ third ++ linkage, place, rfl, ?_⟩
  simp only [TokenTree.words_append, List.mem_append]
  rintro word ((((member | member) | member) | member) | member)
  · cases member
  · simp [isConst.words word member]
  · simp [isAsync.words word member]
  · simp [isUnsafe.words word member]
  · simp [isExtern word member]

/-- A function shows its name first. -/
theorem continues_signature (faithful : Faithful nested) :
    Continues origin taken blocks
      (fun all head => Held all (head :: blocks) ∧ Heads .fnItem taken all head)
      (signature nested) := by
  unfold signature
  apply Continues.pass yields_functionWords
  rintro _ _ ⟨before, place, rfl, others⟩
  apply Continues.named seesWords_identifierNext
  intro text span _ looked
  apply Continues.remembered fun all =>
    ∀ visible, Opens visible taken → Announced .fnItem visible ⟨.word, text, span⟩ all
  · exact fun _ more announced visible opens => (announced visible opens).append more
  · intro visible opens
    have awaits := (opens.awaits .fnItem rfl).append others
    simpa using awaits.announce .fnItem place [] rfl (by simp) (identifier_not_mark looked)
  apply Continues.read (reads_genericParameters faithful)
  rintro _ ⟨generics, _⟩
  apply Continues.read (reads_inside _ (reads_parameters faithful))
  intro _ inputs
  apply Continues.read (reads_returned true faithful)
  intro _ output
  apply Continues.read (reads_conditions faithful)
  rintro _ ⟨conditions, _⟩
  apply Continues.pure
  intro held announced
  refine ⟨held.rearrange ?_, _, _, rfl, announced⟩
  constructor <;> simp <;> grind

theorem reads_signature (faithful : Faithful nested) : Reads id [] (signature nested) :=
  fun _ _ _ => (continues_signature faithful).weaken fun _ _ known => known.1

/-! ## Parts of items -/

theorem seesWords_constantName : SeesWords (either identifierNext (wordNext "_")) :=
  seesWords_identifierNext.either (seesWords_wordNext _)

/-- The word that stands for no name is no word for references or changes either. -/
theorem constantName_not_mark {text : String} {span : Span} {rest : List TokenTree}
    (looked : either identifierNext (wordNext "_") (.leaf ⟨.word, text, span⟩ :: rest) = true) :
    text ≠ "ref" ∧ text ≠ "mut" := by
  rcases (Bool.or_eq_true _ _).mp looked with identifier | blank
  · exact identifier_not_mark identifier
  · cases beq_iff_eq.mp blank
    simp

/-- A constant shows its name first, which is that of the word it begins with. -/
theorem continues_constant (faithful : Faithful nested) :
    Continues origin taken blocks
      (fun all constant => Held all (constant.parts :: blocks) ∧
        ∃ text span later more, constant.parts = .name span :: later ∧
          (text ≠ "ref" ∧ text ≠ "mut") ∧
            all = taken ++ [.leaf ⟨.word, text, span⟩] ++ more)
      (constant nested) := by
  unfold constant constantName
  apply Continues.named seesWords_constantName
  intro text span _ looked
  apply Continues.remembered fun all => ∃ more, all = taken ++ [.leaf ⟨.word, text, span⟩] ++ more
  · rintro _ further ⟨more, rfl⟩
    exact ⟨more ++ further, List.append_assoc _ _ _⟩
  · exact ⟨[], (List.append_nil _).symm⟩
  apply Continues.read (reads_genericParameters faithful)
  rintro _ ⟨generics, angled⟩
  apply Continues.skip (idle_symbol _)
  intro _ _
  apply Continues.read (faithful.type true)
  intro _ type
  apply Continues.skip (idle_optionalSymbol _)
  intro _ given
  apply Continues.either (fun _ => .one (faithful.expression true)) (fun _ => .none)
  intro _ value
  apply Continues.skip (.of_reads (reads_conditions faithful))
  rintro _ ⟨_, conditional⟩
  apply Continues.skip (idle_symbol _)
  intro _ _
  apply Continues.pure
  rintro held ⟨more, all⟩
  refine ⟨held.rearrange ?_, text, span, _, more, rfl, constantName_not_mark looked, all⟩
  constructor <;> simp <;> grind

theorem reads_constant (faithful : Faithful nested) :
    Reads Constant.parts [] (constant nested) :=
  fun _ _ _ => (continues_constant faithful).weaken fun _ _ known => known.1

theorem reads_boundsUntil (stop : Look) (faithful : Faithful nested) :
    Reads id [] (boundsUntil nested stop) :=
  .map (reads_listed _ _ collects_parts (faithful.bound false true))

/-- What the definition of a type shows, whatever is made of it. -/
def TypeDefinition.all (type : TypeDefinition) : List (List Outline) :=
  [type.definition, type.bounds, type.name]

/-- The definition of a type shows its name first. -/
theorem continues_typeDefinition (place : ConditionPlace) (faithful : Faithful nested) :
    Continues origin taken blocks
      (fun all type => Held all (type.all ++ blocks) ∧ Heads .typeItem taken all type.name)
      (typeDefinition nested place) := by
  unfold typeDefinition
  apply Continues.pass (yields_word _)
  rintro _ _ ⟨keyword, rfl⟩
  apply Continues.named seesWords_identifierNext
  intro text span _ looked
  apply Continues.remembered fun all =>
    ∀ visible, Opens visible taken → Announced .typeItem visible ⟨.word, text, span⟩ all
  · exact fun _ more announced visible opens => (announced visible opens).append more
  · intro visible opens
    have awaits := opens.awaits .typeItem rfl
    simpa using awaits.announce .typeItem keyword [] rfl (by simp) (identifier_not_mark looked)
  apply Continues.read (reads_genericParameters faithful)
  rintro _ ⟨generics, _⟩
  apply Continues.skip (idle_optionalSymbol _)
  intro _ isBounded
  apply Continues.either (fun _ => reads_boundsUntil _ faithful) (fun _ => .none)
  intro _ bounds
  have none : Reads (·.1) [] (pure ([], false) : Reader (List Outline × Bool)) :=
    fun _ _ _ => .give (.empty _)
  apply Continues.either (fun _ => none) (fun _ => reads_conditions faithful)
  rintro _ ⟨early, given⟩
  apply Continues.skip (idle_optionalSymbol _)
  intro _ defined
  apply Continues.either (fun _ => .one (faithful.type true)) (fun _ => .none)
  intro _ definition
  apply Continues.either (fun _ => none) (fun _ => reads_conditions faithful)
  rintro _ ⟨late, _⟩
  apply Continues.skip (idle_symbol _)
  intro _ _
  apply Continues.pure
  intro held announced
  refine ⟨held.rearrange ?_, _, _, rfl, announced⟩
  constructor <;> simp [TypeDefinition.all] <;> grind

theorem reads_namedField (faithful : Faithful nested) : Reads id [] (namedField nested) := by
  intro origin taken blocks
  unfold namedField
  apply Continues.read (reads_outerAttributes faithful)
  intro _ attributes
  apply Continues.read reads_visibility
  rintro _ ⟨restriction, _⟩
  apply Continues.skip (idle_sees _)
  intro _ blank
  apply Continues.read (moves_nameWhere seesWords_constantName).reads
  intro _ name
  apply Continues.skip (idle_symbol _)
  intro _ _
  apply Continues.skip (idle_sees _)
  intro _ grouped
  split
  · apply Continues.skip idle_here
    intro _ start
    apply Continues.skip (idle_takeMany 1)
    intro _ _
    apply Continues.skip (.of_reads faithful.fields)
    intro _ _
    apply Continues.read (.leaf rfl start)
    intro _ type
    apply Continues.give
    constructor <;> simp <;> grind
  · apply Continues.read (faithful.type true)
    intro _ type
    apply Continues.give
    constructor <;> simp <;> grind

theorem reads_namedFields (faithful : Faithful nested) : Reads id [] (namedFields nested) :=
  .map (reads_inside _ (reads_separated _ collects_flatten (reads_namedField faithful)))

theorem reads_placedField (faithful : Faithful nested) : Reads id [] (placedField nested) := by
  intro origin taken blocks
  unfold placedField
  apply Continues.read (reads_outerAttributes faithful)
  intro _ attributes
  apply Continues.read reads_visibility
  rintro _ ⟨restriction, _⟩
  apply Continues.read (faithful.type true)
  intro _ type
  apply Continues.give
  constructor <;> simp <;> grind

theorem reads_placedFields (faithful : Faithful nested) : Reads id [] (placedFields nested) :=
  .map (reads_inside _ (reads_separated _ collects_flatten (reads_placedField faithful)))

theorem reads_variant (faithful : Faithful nested) : Reads id [] (variant nested) := by
  intro origin taken blocks
  unfold variant
  apply Continues.read (reads_outerAttributes faithful)
  intro _ attributes
  apply Continues.skip (.of_reads reads_visibility)
  intro _ _
  apply Continues.read moves_identifier.reads
  intro _ name
  apply Continues.skip (idle_sees _)
  intro _ curly
  extract_lets rest
  have reads : ∀ taken fields,
      Continues origin taken (fields :: [name] :: attributes :: blocks) (Gives id blocks)
        (rest fields) := by
    intro taken fields
    apply Continues.skip (idle_optionalSymbol _)
    intro _ given
    apply Continues.either (fun _ => .one (faithful.expression true)) (fun _ => .none)
    intro _ value
    apply Continues.give
    constructor <;> simp <;> grind
  split
  · apply Continues.skip (idle_sees _)
    intro _ _
    exact .read (reads_namedFields faithful) fun _ fields => reads _ fields
  · apply Continues.skip (idle_sees _)
    intro _ round
    split
    · exact .read (reads_placedFields faithful) fun _ fields => reads _ fields
    · exact .read .none fun _ fields => reads _ fields

theorem reads_macroItem (definesName : Bool) : Reads id [] (macroItem definesName) := by
  intro origin taken blocks
  unfold macroItem
  apply Continues.read reads_plainPath
  intro _ names
  apply Continues.skip (idle_symbol _)
  intro _ _
  apply Continues.skip (idle_sees _)
  intro _ named
  apply Continues.either (fun _ => .one moves_anyWord.reads) (fun _ => .none)
  intro _ name
  apply Continues.skip (idle_takeWhere _ _)
  intro _ _
  apply Continues.skip (.of_quiet quiet_get)
  intro _ cursor
  have shown : Rearranges (name :: names :: blocks) ((name ++ names) :: blocks) := by
    constructor <;> simp <;> grind
  split
  · apply Continues.skip (idle_symbol _)
    intro _ _
    exact .give shown
  · exact .give shown

theorem reads_itemGroup {reader : Reader (List Outline)} (reads : Reads id [] reader)
    (faithful : Faithful nested) :
    Reads (fun parts => [pair parts.1 parts.2]) [] (itemGroup nested reader) := by
  apply reads_inside
  intro origin taken blocks
  apply Continues.read (reads_innerAttributes faithful)
  intro _ attributes
  apply Continues.read (reads_everything collects_flatten reads)
  intro _ items
  apply Continues.give
  constructor <;> simp <;> grind

/-! ## Items of traits, implementations and foreign modules -/

/-- A macro call among the items, where one is allowed. -/
theorem reads_macroMember (allowed : Bool) (attributes : List Outline) :
    Reads id [attributes] (do
      if allowed && (← sees macroNext) then
        return attributes ++ (← macroItem false)
      else
        Grammar.fail) := by
  intro origin taken blocks
  apply Continues.skip (idle_sees _)
  intro _ macroCall
  split
  · apply Continues.read (reads_macroItem false)
    intro _ parts
    exact .give (.append _ _ _)
  · exact .fail

theorem reads_traitItem (faithful : Faithful nested) : Reads id [] (traitItem nested) := by
  intro origin taken blocks
  unfold traitItem
  apply Continues.read (reads_outerAttributes faithful)
  intro _ attributes
  apply Continues.skip (.of_reads reads_visibility)
  rintro _ ⟨_, visible⟩
  apply Continues.skip (idle_optionalWord _)
  intro _ isDefault
  extract_lets shown constantFunction
  apply Continues.skip (.of_quiet (quiet_functionNext false))
  intro _ function
  apply Continues.skip (idle_sees _)
  intro _ marked
  split
  · apply Continues.read (reads_signature faithful)
    intro _ head
    apply Continues.skip (idle_optionalSymbol _)
    intro _ ended
    have none : Reads (fun parts => [pair parts.1 parts.2]) []
        (pure ([], []) : Reader (List Outline × List Outline)) := by
      intro _ _ blocks
      apply Continues.give
      constructor <;> simp
    apply Continues.either (fun _ => none) (fun _ => reads_blockWithAttributes faithful)
    rintro _ ⟨own, body⟩
    dsimp only
    split
    · apply Continues.give
      constructor <;> simp <;> grind
    · exact .give (.leave [[pair own body], head, attributes] _)
  apply Continues.skip (idle_optionalWord _)
  intro _ constantWord
  split
  · apply Continues.read (reads_constant faithful)
    intro _ constant
    split
    · exact .give (.append _ _ _)
    · exact .give (.leave [constant.parts, attributes] _)
  apply Continues.skip (idle_sees _)
  intro _ typeWord
  split
  · apply Continues.follow (continues_typeDefinition _ faithful) fun _ _ known => known.1
    intro _ type _
    split
    · apply Continues.give
      constructor <;> simp [TypeDefinition.all] <;> grind
    · exact .give (.leave (type.all ++ [attributes]) _)
  exact .last (reads_macroMember shown attributes) (.refl _)

theorem reads_implementationItem (faithful : Faithful nested) :
    Reads id [] (implementationItem nested) := by
  intro origin taken blocks
  unfold implementationItem
  apply Continues.read (reads_outerAttributes faithful)
  intro _ attributes
  apply Continues.read reads_visibility
  rintro _ ⟨restriction, visible⟩
  apply Continues.skip (idle_takeIf _ _)
  intro _ isDefault
  apply Continues.skip (.of_quiet (quiet_functionNext false))
  intro _ function
  apply Continues.choose
  · intro _
    apply Continues.read (reads_signature faithful)
    intro _ head
    apply Continues.skip (idle_optionalSymbol _)
    intro _ ended
    split
    · exact .give (.leave [head, restriction, attributes] _)
    apply Continues.read (reads_blockWithAttributes faithful)
    rintro _ ⟨own, body⟩
    apply Continues.give
    constructor <;> simp <;> grind
  intro _
  apply Continues.skip (idle_optionalWord _)
  intro _ constantWord
  apply Continues.choose
  · intro _
    apply Continues.read (reads_constant faithful)
    intro _ constant
    split
    · apply Continues.give
      constructor <;> simp <;> grind
    · exact .give (.leave [constant.parts, restriction, attributes] _)
  intro _
  apply Continues.skip (idle_sees _)
  intro _ typeWord
  apply Continues.choose
  · intro _
    apply Continues.follow (continues_typeDefinition _ faithful) fun _ _ known => known.1
    intro _ type _
    split
    · exact .give (.leave (type.all ++ [restriction, attributes]) _)
    · apply Continues.give
      constructor <;> simp [TypeDefinition.all] <;> grind
  exact fun _ => .last (reads_macroMember _ attributes) (.forget restriction _)

theorem reads_foreignFunction (attributes restriction : List Outline) (faithful : Faithful nested) :
    Reads id [restriction, attributes] (foreignFunction nested attributes restriction) := by
  intro origin taken blocks
  unfold foreignFunction
  apply Continues.skip (idle_optionalWord _)
  intro _ _
  apply Continues.skip (idle_optionalWord _)
  intro _ _
  apply Continues.skip (idle_optionalWord _)
  intro _ isUnsafe
  apply Continues.either (fun _ => (Idle.pure false).reads) (fun _ => (idle_optionalWord _).reads)
  intro _ safe
  apply Continues.read (reads_signature faithful)
  intro _ head
  apply Continues.skip (idle_sees _)
  intro _ curly
  split
  · apply Continues.skip (.of_reads (reads_blockWithAttributes faithful))
    intro _ _
    exact .give (.leave [head, [], restriction, attributes] _)
  · apply Continues.skip (idle_symbol _)
    intro _ _
    split
    · exact .give (.leave [head, [], restriction, attributes] _)
    · apply Continues.give
      constructor <;> simp <;> grind

theorem reads_foreignItem (faithful : Faithful nested) : Reads id [] (foreignItem nested) := by
  intro origin taken blocks
  unfold foreignItem
  apply Continues.read (reads_outerAttributes faithful)
  intro _ attributes
  apply Continues.read reads_visibility
  rintro _ ⟨restriction, visible⟩
  apply Continues.skip (.of_quiet (quiet_functionNext true))
  intro _ function
  apply Continues.choose
  · exact fun _ => .last (reads_foreignFunction attributes restriction faithful) (.refl _)
  intro _
  apply Continues.skip (idle_sees _)
  intro _ staticWord
  apply Continues.choose
  · intro _
    apply Continues.skip (idle_takeIf _ _)
    intro _ isMarked
    apply Continues.skip (idle_word _)
    intro _ _
    apply Continues.skip (idle_optionalWord _)
    intro _ _
    apply Continues.read moves_identifier.reads
    intro _ name
    apply Continues.skip (idle_symbol _)
    intro _ _
    apply Continues.read (faithful.type true)
    intro _ type
    apply Continues.skip (idle_optionalSymbol _)
    intro _ hasValue
    extract_lets rest
    have reads : ∀ taken done,
        Continues origin taken ([type] :: [name] :: restriction :: attributes :: blocks)
          (Gives id blocks) (rest done) := by
      intro taken _
      apply Continues.skip (idle_symbol _)
      intro _ _
      split
      · exact .give (.leave [[type], [name], restriction, attributes] _)
      · apply Continues.give
        constructor <;> simp <;> grind
    split
    · exact .skip (.of_reads (faithful.expression true)) fun _ _ => reads _ ()
    · exact reads _ ()
  intro _
  apply Continues.skip (idle_sees _)
  intro _ typeWord
  apply Continues.choose
  · intro _
    apply Continues.follow (continues_typeDefinition _ faithful) fun _ _ known => known.1
    intro _ type _
    split
    · exact .give (.leave (type.all ++ [restriction, attributes]) _)
    · apply Continues.give
      constructor <;> simp [TypeDefinition.all] <;> grind
  exact fun _ => .last (reads_macroMember _ attributes) (.forget restriction _)

/-! ## Items -/

/-- An item shows what is taken, and its name after the path of its visibility. -/
def Itemized (rest : List (List Outline)) (taken : List TokenTree) (parts : ItemParts) : Prop :=
  Held taken ([pair parts.attributes parts.children] :: rest) ∧
    ((Form.item parts.form).declares → ∃ word visible,
      Announced parts.form visible word taken ∧
        visible.map .name ++ [.name word.span] <+: parts.children)

namespace Continues

/-- After its keyword an item shows the name that it declares. -/
theorem announced (form : ItemForm) {keyword : String} {look : Look} {visible : List Span}
    {α : Type} {final : List TokenTree → α → Prop} {next : Outline → Reader α}
    (announces : (Form.item form).keyword? = some keyword) (words : SeesWords look)
    (unmarked : ∀ text span rest, look (.leaf ⟨.word, text, span⟩ :: rest) = true →
      text ≠ "ref" ∧ text ≠ "mut")
    (awaits : Awaits keyword visible taken)
    (later : ∀ more word, Continues origin (taken ++ more) ([.name word.span] :: blocks)
      (fun all value => Announced form visible word all → final all value)
      (next (.name word.span))) :
    Continues origin taken blocks final (do
      Grammar.word keyword
      next (← nameWhere look)) := by
  apply Continues.pass (yields_word keyword)
  rintro _ _ ⟨place, rfl⟩
  apply Continues.named words
  intro text span rest looked
  apply Continues.remembered (Announced form visible ⟨.word, text, span⟩)
  · exact fun _ more known => known.append more
  · simpa using awaits.announce form place [] announces (by simp) (unmarked text span rest looked)
  · rw [List.append_assoc]
    exact later _ ⟨.word, text, span⟩

/-- An item that shows its name after the path of its visibility. -/
theorem itemized {form : ItemForm} {attributes children : List Outline} {visible : List Span}
    {word : Leaf} (shown : visible.map .name ++ [.name word.span] <+: children)
    (rearranges : Rearranges blocks ([pair attributes children] :: rest)) :
    Continues origin taken blocks
      (fun all parts => Announced form visible word all → Itemized rest all parts)
      (pure { form, attributes, children }) :=
  .pure fun held announced =>
    ⟨held.rearrange rearranges, fun _ => ⟨word, visible, announced, shown⟩⟩

/-- An item that declares no name. -/
theorem nameless {parts : ItemParts} (plain : (Form.item parts.form).declares = false)
    (rearranges : Rearranges blocks ([pair parts.attributes parts.children] :: rest)) :
    Continues origin taken blocks (Itemized rest) (pure parts) := by
  apply Continues.pure
  intro held
  refine ⟨held.rearrange rearranges, fun declares => ?_⟩
  rw [plain] at declares
  cases declares

/-- What is known of the name need not be used. -/
theorem unneeded {α : Type} {post : List TokenTree → α → Prop} {reader : Reader α}
    {fact : List TokenTree → Prop} (continues : Continues origin taken blocks post reader) :
    Continues origin taken blocks (fun all value => fact all → post all value) reader :=
  continues.weaken fun _ _ known _ => known

/-- An item that is kept as it stands shows nothing. -/
theorem verbatim (front : List (List Outline)) :
    Continues origin taken (front ++ rest) (Itemized rest) (pure verbatimItem) := by
  apply nameless rfl
  apply (Rearranges.leave front rest).trans
  constructor <;> simp [verbatimItem]

end Continues

variable {visible : List Span}

theorem items_functionItem (opens : Opens visible taken) (faithful : Faithful nested) :
    Continues origin taken (visible.map .name :: rest) (Itemized rest)
      (functionItem nested (visible.map .name)) := by
  unfold functionItem
  apply Continues.follow (continues_signature faithful) fun _ _ known => known.1
  rintro _ head ⟨_, word, later, rfl, announced⟩
  apply Continues.skip (idle_optionalSymbol _)
  intro _ ended
  split
  · exact .verbatim [_, _]
  apply Continues.remembered (Announced .fnItem visible word)
  · exact fun _ more known => known.append more
  · exact (announced visible opens).append _
  apply Continues.read (reads_blockWithAttributes faithful)
  rintro _ ⟨attributes, body⟩
  apply Continues.itemized
  · simp
  · constructor <;> simp <;> grind

theorem nameless_externCrate (restriction : List Outline) :
    Continues origin taken (restriction :: rest) (Itemized rest) (externCrate restriction) := by
  unfold externCrate
  apply Continues.skip (idle_word _)
  intro _ _
  apply Continues.skip (idle_word _)
  intro _ _
  apply Continues.read
    (moves_nameWhere (seesWords_identifierNext.either (seesWords_wordNext _))).reads
  intro _ name
  apply Continues.skip (idle_optionalWord _)
  intro _ renamed
  apply Continues.either (fun _ => .one (moves_nameWhere seesWords_constantName).reads)
    (fun _ => .none)
  intro _ rename
  apply Continues.skip (idle_symbol _)
  intro _ _
  apply Continues.nameless rfl
  constructor <;> simp <;> grind

theorem nameless_foreignModule (faithful : Faithful nested) :
    Continues origin taken rest (Itemized rest) (foreignModule nested) := by
  unfold foreignModule
  apply Continues.skip (idle_optionalWord _)
  intro _ _
  apply Continues.skip (.of_quiet (quiet_guardThat _))
  intro _ _
  apply Continues.pass yields_optionalLinkage
  intro _ _ _
  apply Continues.read (reads_itemGroup (reads_foreignItem faithful) faithful)
  rintro _ ⟨attributes, children⟩
  exact .nameless rfl (.refl _)

/-- Trees of an import show what those among them show that are there. -/
theorem collects_useTrees : Collects (fun tree : Option (List Outline) => tree.getD [])
    fun trees => (trees.map (·.getD [])).flatten :=
  fun _ => List.flatMap_def.symm

/-- Trees of an import that are all there show what each of them shows. -/
theorem foldr_useTrees (trees : List (Option (List Outline))) (names : List Outline)
    (whole : trees.foldr (fun tree rest => tree.bind fun names => rest.map (names ++ ·)) (some []) =
      some names) :
    names = (trees.map (·.getD [])).flatten := by
  induction trees generalizing names with
  | nil =>
      cases whole
      rfl
  | cons tree trees ih =>
      rw [List.foldr_cons, Option.bind_eq_some_iff] at whole
      rcases whole with ⟨own, rfl, whole⟩
      rcases Option.map_eq_some_iff.mp whole with ⟨others, wholeOthers, rfl⟩
      rw [ih others wholeOthers]
      rfl

theorem reads_useTree (root : Bool) (faithful : Faithful nested) :
    Reads (·.getD []) [] (useTree nested root) := by
  unfold useTree
  apply Reads.test (idle_sees _)
  · intro origin taken blocks
    apply Continues.read moves_anyWord.reads
    intro _ name
    apply Continues.skip (idle_optionalSymbol _)
    intro _ goesOn
    split
    · apply Continues.read (faithful.useTree false)
      intro _ tree
      apply Continues.give
      cases tree with
      | none => exact .leave [[], [name]] _
      | some names => exact .append [name] names _
    apply Continues.skip (idle_optionalWord _)
    intro _ renamed
    split
    · apply Continues.read (moves_nameWhere seesWords_constantName).reads
      intro _ rename
      exact .give (.append [name] [rename] _)
    · exact .give (.refl _)
  apply Reads.test (idle_optionalSymbol _)
  · exact fun _ _ blocks => .give (.empty blocks)
  · intro origin taken blocks
    have inner : Reads (fun tree : Option (List Outline) => tree.getD []) [] (do
        let rooted ← if root then optionalSymbol "::" else pure false
        let tree ← nested (.useTree (root && !rooted))
        return if rooted then none else tree) := by
      intro origin taken blocks
      apply Continues.either (fun _ => (idle_optionalSymbol _).reads) (fun _ => (Idle.pure _).reads)
      intro _ rooted
      apply Continues.read (faithful.useTree _)
      intro _ tree
      apply Continues.give
      split
      · exact .leave [_, []] _
      · exact .keep _ _ _
    apply Continues.read (reads_inside _ (reads_separated _ collects_useTrees inner))
    intro _ trees
    apply Continues.give
    cases whole : trees.foldr
        (fun tree rest => tree.bind fun names => rest.map (names ++ ·)) (some []) with
    | none => exact .leave [_] _
    | some names =>
        rw [foldr_useTrees trees names whole]
        exact .refl _

theorem nameless_useItem (restriction : List Outline) (faithful : Faithful nested) :
    Continues origin taken (restriction :: rest) (Itemized rest) (useItem nested restriction) := by
  unfold useItem
  apply Continues.skip (idle_word _)
  intro _ _
  apply Continues.skip (idle_optionalSymbol _)
  intro _ rooted
  apply Continues.read (faithful.useTree _)
  intro _ tree
  apply Continues.skip (idle_symbol _)
  intro _ _
  cases tree with
  | none => exact .verbatim [_, _]
  | some names =>
      apply Continues.nameless rfl
      constructor <;> simp <;> grind

theorem items_staticItem (opens : Opens visible taken) (faithful : Faithful nested) :
    Continues origin taken (visible.map .name :: rest) (Itemized rest)
      (staticItem nested (visible.map .name)) := by
  unfold staticItem
  apply Continues.pass (yields_word _)
  rintro _ _ ⟨place, rfl⟩
  apply Continues.pass (yields_optionalWord _)
  intro between _ isMut
  apply Continues.named seesWords_identifierNext
  intro text span _ looked
  apply Continues.remembered (Announced .staticItem visible ⟨.word, text, span⟩)
  · exact fun _ more known => known.append more
  · exact (opens.awaits .staticItem rfl).announce .staticItem place between rfl
      (fun word member => .inr (isMut.words word member)) (identifier_not_mark looked)
  apply Continues.skip (idle_optionalSymbol _)
  intro _ untyped
  split
  · apply Continues.skip (.of_reads (faithful.expression true))
    intro _ _
    apply Continues.skip (idle_symbol _)
    intro _ _
    exact .unneeded (.verbatim [_, _])
  apply Continues.skip (idle_symbol _)
  intro _ _
  apply Continues.read (faithful.type true)
  intro _ type
  apply Continues.skip (idle_optionalSymbol _)
  intro _ ended
  split
  · exact .unneeded (.verbatim [_, _, _])
  apply Continues.skip (idle_symbol _)
  intro _ _
  apply Continues.read (faithful.expression true)
  intro _ value
  apply Continues.skip (idle_symbol _)
  intro _ _
  apply Continues.itemized
  · simp
  · constructor <;> simp <;> grind

theorem items_constItem (opens : Opens visible taken) (faithful : Faithful nested) :
    Continues origin taken (visible.map .name :: rest) (Itemized rest)
      (constItem nested (visible.map .name)) := by
  unfold constItem
  apply Continues.pass (yields_word _)
  rintro _ _ ⟨place, rfl⟩
  apply Continues.follow (continues_constant faithful) fun _ _ known => known.1
  rintro _ ⟨parts, hasValue, isGeneric⟩ ⟨_, text, span, later, further, shown, notMark, all⟩
  dsimp only at shown
  cases shown
  split
  · apply Continues.remembered (Announced .constItem visible ⟨.word, text, span⟩)
    · exact fun _ more known => known.append more
    · rw [all]
      apply Announced.append
      simpa using (opens.awaits .constItem rfl).announce .constItem place [] rfl (by simp) notMark
    apply Continues.itemized
    · simp
    · constructor <;> simp <;> grind
  · exact .verbatim [_, _]

theorem items_moduleItem (opens : Opens visible taken) (faithful : Faithful nested) :
    Continues origin taken (visible.map .name :: rest) (Itemized rest)
      (moduleItem nested (visible.map .name)) := by
  unfold moduleItem
  apply Continues.pass (yields_optionalWord _)
  intro _ _ isUnsafe
  have awaits := (opens.awaits .modItem rfl).append
    fun word member => by rw [isUnsafe.words word member]; decide
  have unmarked : ∀ text span rest,
      either identifierNext (wordNext "try") (.leaf ⟨.word, text, span⟩ :: rest) = true →
        text ≠ "ref" ∧ text ≠ "mut" := by
    intro text span rest looked
    rcases (Bool.or_eq_true _ _).mp looked with identifier | word
    · exact identifier_not_mark identifier
    · cases beq_iff_eq.mp word
      simp
  apply Continues.announced .modItem rfl
    (seesWords_identifierNext.either (seesWords_wordNext _)) unmarked awaits
  intro _ word
  apply Continues.skip (idle_optionalSymbol _)
  intro _ ended
  split
  · apply Continues.itemized
    · simp
    · constructor
      · simp
        grind
      · simp
  apply Continues.read (reads_itemGroup (.one faithful.item) faithful)
  rintro _ ⟨attributes, items⟩
  apply Continues.itemized
  · simp
  · constructor <;> simp <;> grind

theorem items_typeItem (opens : Opens visible taken) (faithful : Faithful nested) :
    Continues origin taken (visible.map .name :: rest) (Itemized rest)
      (typeItem nested (visible.map .name)) := by
  unfold typeItem
  apply Continues.follow (continues_typeDefinition _ faithful) fun _ _ known => known.1
  rintro _ ⟨_, bounds, definition, isBounded⟩ ⟨_, word, later, shown, announced⟩
  dsimp only at shown
  cases shown
  split
  · exact .verbatim [_, _, _, _]
  · apply Continues.remembered (Announced .typeItem visible word)
    · exact fun _ more known => known.append more
    · exact announced visible opens
    apply Continues.itemized
    · simp
    · constructor <;> simp [TypeDefinition.all] <;> grind

theorem items_structItem (opens : Opens visible taken) (faithful : Faithful nested) :
    Continues origin taken (visible.map .name :: rest) (Itemized rest)
      (structItem nested (visible.map .name)) := by
  unfold structItem
  apply Continues.announced .structItem rfl seesWords_identifierNext
    (fun _ _ _ => identifier_not_mark) (opens.awaits .structItem rfl)
  intro _ word
  apply Continues.read (reads_genericParameters faithful)
  rintro _ ⟨generics, _⟩
  apply Continues.read (reads_conditions faithful)
  rintro _ ⟨early, given⟩
  apply Continues.skip (idle_sees _)
  intro _ round
  extract_lets finish
  have itemizes : ∀ taken late fields,
      Continues origin taken
        (fields :: late :: early :: generics :: [.name word.span] :: visible.map .name :: rest)
        (fun all value => Announced .structItem visible word all → Itemized rest all value)
        (finish (late, fields)) := by
    intro taken late fields
    apply Continues.itemized
    · simp
    · constructor <;> simp <;> grind
  split
  · apply Continues.skip (idle_sees _)
    intro _ _
    apply Continues.read (reads_placedFields faithful)
    intro _ fields
    apply Continues.read (reads_conditions faithful)
    rintro _ ⟨late, _⟩
    apply Continues.skip (idle_symbol _)
    intro _ _
    apply Continues.pure_bind
    apply (itemizes _ late fields).rearrange
    constructor <;> simp <;> grind
  apply Continues.skip (idle_sees _)
  intro _ curly
  split
  · apply Continues.read (reads_namedFields faithful)
    intro _ fields
    apply Continues.pure_bind
    apply (itemizes _ [] fields).rearrange
    constructor <;> simp
  · apply Continues.skip (idle_symbol _)
    intro _ _
    apply Continues.pure_bind
    apply (itemizes _ [] []).rearrange
    constructor <;> simp

theorem items_enumItem (opens : Opens visible taken) (faithful : Faithful nested) :
    Continues origin taken (visible.map .name :: rest) (Itemized rest)
      (enumItem nested (visible.map .name)) := by
  unfold enumItem
  apply Continues.announced .enumItem rfl seesWords_identifierNext
    (fun _ _ _ => identifier_not_mark) (opens.awaits .enumItem rfl)
  intro _ word
  apply Continues.read (reads_genericParameters faithful)
  rintro _ ⟨generics, _⟩
  apply Continues.read (reads_conditions faithful)
  rintro _ ⟨conditions, _⟩
  apply Continues.read
    (reads_inside _ (reads_separated _ collects_flatten (reads_variant faithful)))
  intro _ variants
  apply Continues.itemized
  · simp
  · constructor <;> simp <;> grind

theorem items_unionItem (opens : Opens visible taken) (faithful : Faithful nested) :
    Continues origin taken (visible.map .name :: rest) (Itemized rest)
      (unionItem nested (visible.map .name)) := by
  unfold unionItem
  apply Continues.announced .unionItem rfl seesWords_identifierNext
    (fun _ _ _ => identifier_not_mark) (opens.awaits .unionItem rfl)
  intro _ word
  apply Continues.read (reads_genericParameters faithful)
  rintro _ ⟨generics, _⟩
  apply Continues.read (reads_conditions faithful)
  rintro _ ⟨conditions, _⟩
  apply Continues.read (reads_namedFields faithful)
  intro _ fields
  apply Continues.itemized
  · simp
  · constructor <;> simp <;> grind

theorem items_traitBody (word : Leaf) (generics : List Outline) (faithful : Faithful nested) :
    Continues origin taken (generics :: [.name word.span] :: visible.map .name :: rest)
      (fun all value => Announced .traitItem visible word all → Itemized rest all value)
      (traitBody nested (visible.map .name ++ [.name word.span]) generics) := by
  unfold traitBody
  apply Continues.skip (idle_optionalSymbol _)
  intro _ bounded
  apply Continues.either (fun _ => reads_boundsUntil _ faithful) (fun _ => .none)
  intro _ bounds
  apply Continues.read (reads_conditions faithful)
  rintro _ ⟨conditions, _⟩
  apply Continues.read (reads_itemGroup (reads_traitItem faithful) faithful)
  rintro _ ⟨attributes, items⟩
  apply Continues.itemized
  · simp
  · constructor <;> simp <;> grind

theorem items_markedTrait (opens : Opens visible taken) (faithful : Faithful nested) :
    Continues origin taken (visible.map .name :: rest) (Itemized rest)
      (markedTrait nested (visible.map .name)) := by
  unfold markedTrait
  apply Continues.pass (yields_optionalWord _)
  intro _ _ isUnsafe
  apply Continues.pass (yields_optionalWord _)
  intro _ _ isAuto
  have awaits := ((opens.awaits .traitItem rfl).append
    fun word member => by rw [isUnsafe.words word member]; decide).append
      fun word member => by rw [isAuto.words word member]; decide
  apply Continues.announced .traitItem rfl seesWords_identifierNext
    (fun _ _ _ => identifier_not_mark) awaits
  intro _ word
  apply Continues.read (reads_genericParameters faithful)
  rintro _ ⟨generics, _⟩
  exact items_traitBody word generics faithful

theorem items_traitOrAlias (opens : Opens visible taken) (faithful : Faithful nested) :
    Continues origin taken (visible.map .name :: rest) (Itemized rest)
      (traitOrAlias nested (visible.map .name)) := by
  unfold traitOrAlias
  apply Continues.announced .traitItem rfl seesWords_identifierNext
    (fun _ _ _ => identifier_not_mark) (opens.awaits .traitItem rfl)
  intro _ word
  apply Continues.read (reads_genericParameters faithful)
  rintro _ ⟨generics, _⟩
  apply Continues.skip (idle_sees _)
  intro _ isTrait
  split
  · exact items_traitBody word generics faithful
  apply Continues.unneeded
  apply Continues.skip (idle_symbol _)
  intro _ _
  apply Continues.read (reads_boundsUntil _ faithful)
  intro _ bounds
  apply Continues.read (reads_conditions faithful)
  rintro _ ⟨conditions, _⟩
  apply Continues.skip (idle_symbol _)
  intro _ _
  apply Continues.nameless rfl
  constructor <;> simp <;> grind

theorem nameless_implementation (visible : Bool) (faithful : Faithful nested) :
    Continues origin taken rest (Itemized rest) (implementation nested visible) := by
  unfold implementation
  apply Continues.skip (idle_optionalWord _)
  intro _ _
  apply Continues.skip (idle_optionalWord _)
  intro _ _
  apply Continues.skip (idle_word _)
  intro _ _
  apply Continues.skip (idle_sees _)
  intro _ generic
  have none : Reads (·.1) [] (pure ([], false) : Reader (List Outline × Bool)) :=
    fun _ _ _ => .give (.empty _)
  apply Continues.either (fun _ => reads_genericParameters faithful) (fun _ => none)
  rintro _ ⟨generics, _⟩
  apply Continues.skip (idle_sees _)
  intro _ isConstant
  extract_lets more
  have reads : ∀ taken done,
      Continues origin taken (generics :: rest) (Itemized rest) (more done) := by
    intro taken _
    apply Continues.skip idle_here
    intro _ start
    apply Continues.skip (idle_takeIf _ _)
    intro _ negative
    apply Continues.read (faithful.type true)
    intro _ first
    apply Continues.skip (idle_optionalWord _)
    intro _ isFor
    extract_lets isTrait finish
    have finishes : ∀ taken about,
        Continues origin taken (about :: generics :: rest) (Itemized rest) (finish about) := by
      intro taken about
      apply Continues.read (reads_conditions faithful)
      rintro _ ⟨conditions, _⟩
      apply Continues.read (reads_itemGroup (reads_implementationItem faithful) faithful)
      rintro _ ⟨attributes, items⟩
      dsimp only
      split
      · exact .verbatim [_, _, _, _]
      · apply Continues.nameless rfl
        constructor <;> simp <;> grind
    split
    · apply Continues.read (faithful.type true)
      intro _ self
      apply Continues.pure_bind
      apply (finishes _ _).rearrange
      split
      · constructor <;> simp <;> grind
      · exact .keep _ _ _
    split
    · exact .failAt_bind start
    · exact .pure_bind (finishes _ [first])
  split
  · apply Continues.skip (idle_optionalSymbol _)
    intro _ _
    exact .skip (idle_word _) fun _ _ => reads _ ()
  · exact reads _ ()

theorem nameless_macroDefinition : Continues origin taken rest (Itemized rest) macroDefinition := by
  unfold macroDefinition
  apply Continues.skip (idle_word _)
  intro _ _
  apply Continues.skip (.of_reads moves_identifier.reads)
  intro _ _
  apply Continues.skip (idle_takeIf _ _)
  intro _ _
  apply Continues.skip (idle_takeWhere _ _)
  intro _ _
  exact .verbatim []

theorem items_externItem (visibility : Bool) (start : Nat) (faithful : Faithful nested) :
    Continues origin taken (visible.map .name :: rest) (Itemized rest)
      (externItem nested (visible.map .name) visibility start) := by
  unfold externItem
  apply Continues.skip (idle_sees _)
  intro _ crate
  apply Continues.choose
  · exact fun _ => nameless_externCrate _
  intro _
  apply Continues.skip (idle_sees _)
  intro _ foreign
  apply Continues.choose
  · intro _
    split
    · exact .failAt start
    · exact (nameless_foreignModule faithful).rearrange (.forget _ _)
  intro _
  apply Continues.skip (idle_word _)
  intro _ _
  apply Continues.skip (idle_takeIf _ _)
  intro _ _
  exact .fail

theorem items_unsafeItem (opens : Opens visible taken) (visibility : Bool) (start : Nat)
    (faithful : Faithful nested) :
    Continues origin taken (visible.map .name :: rest) (Itemized rest)
      (unsafeItem nested (visible.map .name) visibility start) := by
  unfold unsafeItem
  extract_lets traitNext after
  apply Continues.decided (quiet_sees _) (items_markedTrait opens faithful)
  apply Continues.decided (quiet_sees _)
    ((nameless_implementation visibility faithful).rearrange (.forget _ _))
  apply Continues.quiet (quiet_sees _)
  intro isForeign
  apply Continues.choose
  · intro _
    split
    · exact .failAt start
    · exact (nameless_foreignModule faithful).rearrange (.forget _ _)
  intro _
  apply Continues.decided (quiet_sees _) (items_moduleItem opens faithful)
  apply Continues.skip (idle_word _)
  intro _ _
  exact .fail

theorem items_bareItem (wordless : TokenTree.words taken = []) (faithful : Faithful nested) :
    Continues origin taken rest (Itemized rest) (bareItem nested) := by
  unfold bareItem
  apply Continues.quiet quiet_here
  intro start
  apply Continues.yield yields_visibility fun _ _ known => known.choose_spec.2.2
  rintro more ⟨_, visibility⟩ ⟨visible, rfl, opens, _⟩
  have opens : Opens visible (taken ++ more) := by
    refine ⟨?_, fun some => (opens.restricted some).prepend taken⟩
    rw [TokenTree.words_append, wordless, List.nil_append]
    exact opens.words
  apply Continues.decided (quiet_functionNext false) (items_functionItem opens faithful)
  apply Continues.decided (quiet_sees _) (items_externItem visibility start faithful)
  apply Continues.decided (quiet_sees _) (nameless_useItem _ faithful)
  apply Continues.decided (quiet_sees _) (items_staticItem opens faithful)
  apply Continues.decided (quiet_sees _) (items_constItem opens faithful)
  apply Continues.decided (quiet_sees _) (items_unsafeItem opens visibility start faithful)
  apply Continues.decided (quiet_sees _) (items_moduleItem opens faithful)
  apply Continues.decided (quiet_sees _) (items_typeItem opens faithful)
  apply Continues.decided (quiet_sees _) (items_structItem opens faithful)
  apply Continues.decided (quiet_sees _) (items_enumItem opens faithful)
  apply Continues.decided (quiet_sees _) (items_unionItem opens faithful)
  apply Continues.decided (quiet_sees _) (items_traitOrAlias opens faithful)
  apply Continues.decided (quiet_sees _) (items_markedTrait opens faithful)
  apply Continues.decided (quiet_sees _)
    ((nameless_implementation visibility faithful).rearrange (.forget _ _))
  apply Continues.decided (quiet_sees _) (nameless_macroDefinition.rearrange (.forget _ _))
  apply Continues.quiet (quiet_sees _)
  intro isCall
  apply Continues.choose
  · intro _
    apply Continues.read (reads_macroItem true)
    intro _ children
    apply Continues.nameless rfl
    constructor
    · simp
    · simp
      grind
  · exact fun _ => .fail

/-- An item declares its name in the run of all that it takes. -/
theorem reads_item (faithful : Faithful nested) : Reads ([·]) [] (item nested) := by
  apply Reads.of_start
  intro origin
  unfold item
  apply Continues.atStart
  apply Continues.yield
    ((reads_outerAttributes faithful).yields.both (wordless_outerAttributes faithful))
    fun _ _ known => known.1
  rintro _ attributes ⟨_, wordless⟩
  apply Continues.follow (items_bareItem wordless faithful) fun _ _ known => known.1
  rintro more ⟨form, inner, children⟩ ⟨_, declares⟩
  extract_lets kept
  apply Continues.spannedIf
  intro span covered
  apply Continues.pure
  intro held
  have whole : Rearranges [[pair inner children], attributes] [[pair kept children]] := by
    simp only [kept]
    split <;> constructor <;> simp <;> grind
  apply (held.rearrange whole).element
  intro isDeclaration
  rcases declares isDeclaration with ⟨word, visible, announced, shown⟩
  have some := Form.ne_nil_of_declared? announced.declared
  cases covered some
  exact ⟨_, word, visible, .refl _, some, rfl, fun _ => rfl, announced.declared, shown,
    announced.restricted⟩

end ProgramGraph.Grammar
