import ProgramGraph.Proofs.Grammar.Reading

/-!
# Elementary readers

What the readers take and show from which all others are made: single trees, words and symbols,
groups, and repetitions.
-/

namespace ProgramGraph.Grammar

open Source Outline

variable {α σ : Type} {look : Look} {reader : Reader α} {shows : α → List Outline}

/-! ## Looking ahead -/

theorem quiet_sees (look : Look) : Quiet (sees look) := by
  intro before value after done
  cases done
  rfl

theorem quiet_atEnd : Quiet atEnd := by
  intro before value after done
  cases done
  rfl

theorem quiet_here : Quiet here := by
  intro before value after done
  cases done
  rfl

theorem quiet_get : Quiet (get : Reader Cursor) := by
  intro before value after done
  cases done
  rfl

theorem quiet_spanFrom (start : Nat) : Quiet (spanFrom start) := by
  intro before value after done
  cases done
  rfl

theorem idle_sees (look : Look) : Idle (sees look) :=
  .of_quiet (quiet_sees look)

theorem idle_here : Idle here :=
  .of_quiet quiet_here

theorem quiet_guardThat (look : Look) : Quiet (guardThat look) := by
  intro before value after done
  rcases run_bind_eq_ok_iff.mp done with ⟨found, between, saw, rest⟩
  cases quiet_sees look before found between saw
  split at rest
  · cases rest
    rfl
  · cases rest

theorem Continues.guarded {origin : Cursor} {taken : List TokenTree} {blocks : List (List Outline)}
    {final : List TokenTree → α → Prop} {next : Unit → Reader α}
    (later : (∀ trees, origin.rest = taken ++ trees → look trees = true) →
      Continues origin taken blocks final (next ())) :
    Continues origin taken blocks final (guardThat look >>= next) := by
  rw [guardThat, bind_assoc]
  apply Continues.seen
  intro found looked
  split
  · next holds => exact .pure_bind (later fun trees follow => (looked trees follow).trans holds)
  · exact .fail_bind

theorem quiet_lookAhead (reader : Reader α) : Quiet (lookAhead reader) := by
  intro before value after done
  rcases run_bind_eq_ok_iff.mp done with ⟨cursor, _, got, rest⟩
  cases got
  rcases run_bind_eq_ok_iff.mp rest with ⟨_, _, _, rest⟩
  rcases run_bind_eq_ok_iff.mp rest with ⟨_, _, sets, rest⟩
  cases sets
  cases rest
  rfl

/-! ## Single trees -/

theorem yields_take : Yields (fun taken tree => taken = [tree]) take := by
  intro before value after done
  rcases run_bind_eq_ok_iff.mp done with ⟨cursor, _, got, rest⟩
  cases got
  rcases before with ⟨trees, limit, last, curly, leftover⟩
  cases trees with
  | nil => cases rest
  | cons tree trees =>
      cases rest
      exact ⟨[_], ⟨rfl, rfl, rfl⟩, rfl⟩

theorem idle_take : Idle take :=
  .of_yields yields_take

theorem idle_takeMany (count : Nat) : Idle (takeMany count) := by
  induction count with
  | zero => exact .pure ()
  | succ count ih => exact idle_take.bind fun _ => ih

theorem idle_takeIf (look : Look) (count : Nat) : Idle (takeIf look count) := by
  apply (Idle.of_quiet (quiet_sees look)).bind
  intro found
  split
  · exact (idle_takeMany count).bind fun _ => .pure true
  · exact .pure false

theorem idle_takeWhere (look : Look) (count : Nat) : Idle (takeWhere look count) := by
  apply (Idle.of_quiet (quiet_sees look)).bind
  intro found
  split
  · exact idle_takeMany count
  · exact .fail

theorem idle_optionalSymbol (text : String) : Idle (optionalSymbol text) :=
  idle_takeIf _ _

theorem idle_symbol (text : String) : Idle (symbol text) :=
  idle_takeWhere _ _

/-- Before it goes on, a symbol is taken, unless a look tells that none has to stand there. -/
theorem Continues.separator {origin : Cursor} {taken : List TokenTree}
    {blocks : List (List Outline)} {post : List TokenTree → α → Prop} {condition : Reader Bool}
    {next : Reader α} (quiet : Quiet condition) (mark : String)
    (later : ∀ more, Continues origin (taken ++ more) blocks post next) :
    Continues origin taken blocks post (do
      if !(← condition) then symbol mark
      next) := by
  apply Continues.quiet quiet
  intro _
  split
  · exact .skip (idle_symbol mark) fun more _ => later more
  · have nothing := later []
    rwa [List.append_nil] at nothing

theorem idle_optionalWord (text : String) : Idle (optionalWord text) :=
  idle_takeIf _ _

theorem idle_word (text : String) : Idle (word text) :=
  idle_takeWhere _ _

theorem idle_literal : Idle literal := by
  apply (Idle.of_quiet (quiet_sees _)).bind
  intro found
  split
  · exact idle_takeWhere _ 2
  · exact idle_takeWhere _ 1

theorem idle_whereAllowed (allowed : Bool) {part : Reader Bool} (idle : Idle part) :
    Idle (whereAllowed allowed part) := by
  rw [whereAllowed]
  split
  · exact idle
  · exact .pure false

/-- A reader takes something just if it says so. -/
def TakesIf (reader : Reader Bool) : Prop :=
  Yields (fun taken took => took = true ↔ taken ≠ []) reader

/-- One of two readers, after a part that is taken or not. -/
theorem Continues.tried {origin : Cursor} {taken : List TokenTree} {blocks : List (List Outline)}
    {post : List TokenTree → α → Prop} {condition : Reader Bool} {other : Reader α}
    (takes : TakesIf condition)
    (first : ∀ more, more ≠ [] → Continues origin (taken ++ more) blocks post reader)
    (second : Continues origin taken blocks post other) :
    Continues origin taken blocks post (do if ← condition then reader else other) := by
  apply Continues.pass takes
  intro more took iff
  split
  · next took => exact first more (iff.mp took)
  · next not =>
      cases Classical.not_not.mp (mt iff.mpr not)
      rwa [List.append_nil]

theorem takesIf_takeIf (look : Look) (count : Nat) : TakesIf (takeIf look (count + 1)) := by
  intro before value after done
  rcases run_bind_eq_ok_iff.mp done with ⟨found, between, saw, rest⟩
  cases saw
  split at rest
  · rcases run_bind_eq_ok_iff.mp rest with ⟨_, middle, took, stop⟩
    cases stop
    rcases run_bind_eq_ok_iff.mp took with ⟨tree, next, first, others⟩
    rcases yields_take _ _ _ first with ⟨_, takes, rfl⟩
    rcases idle_takeMany count _ _ _ others with ⟨more, takesMore, _⟩
    exact ⟨tree :: more, takes.trans takesMore, by simp⟩
  · cases rest
    exact ⟨[], .refl _, by simp⟩

/-- A tree is taken if a look at it succeeds. -/
theorem yields_takeIf_one (look : Look) :
    Yields
      (fun taken took => taken = [] ∧ took = false ∨
        ∃ tree rest, taken = [tree] ∧ took = true ∧ look (tree :: rest) = true)
      (takeIf look 1) := by
  intro before value after done
  rcases run_bind_eq_ok_iff.mp done with ⟨found, between, saw, rest⟩
  cases saw
  split at rest
  · next looked =>
    rcases run_bind_eq_ok_iff.mp rest with ⟨_, middle, took, stop⟩
    cases stop
    rcases run_bind_eq_ok_iff.mp took with ⟨tree, next, first, others⟩
    cases others
    rcases yields_take _ _ _ first with ⟨_, takes, rfl⟩
    refine ⟨[tree], takes, .inr ⟨tree, after.rest, rfl, rfl, ?_⟩⟩
    rw [takes.rest] at looked
    exact looked
  · cases rest
    exact ⟨[], .refl _, .inl ⟨rfl, rfl⟩⟩

/-- A given word is taken exactly where it is said so, and nothing else. -/
def TakesWord (text : String) (taken : List TokenTree) (took : Bool) : Prop :=
  taken = [] ∧ took = false ∨ ∃ span, taken = [.leaf ⟨.word, text, span⟩] ∧ took = true

namespace TakesWord

variable {text : String} {taken : List TokenTree} {took : Bool}

theorem iff (takes : TakesWord text taken took) : took = true ↔ taken ≠ [] := by
  rcases takes with ⟨rfl, rfl⟩ | ⟨span, rfl, rfl⟩ <;> simp

theorem words (takes : TakesWord text taken took) :
    ∀ word ∈ TokenTree.words taken, word.text = text := by
  rcases takes with ⟨rfl, rfl⟩ | ⟨span, rfl, rfl⟩ <;> simp

end TakesWord

theorem yields_optionalWord (text : String) : Yields (TakesWord text) (optionalWord text) := by
  intro before value after done
  rcases yields_takeIf_one _ before value after done with
    ⟨_, takes, ⟨rfl, rfl⟩ | ⟨tree, rest, rfl, rfl, looked⟩⟩
  · exact ⟨[], takes, .inl ⟨rfl, rfl⟩⟩
  · refine ⟨[tree], takes, .inr ?_⟩
    unfold wordNext at looked
    split at looked
    · next same =>
      cases same
      cases beq_iff_eq.mp looked
      exact ⟨_, rfl, rfl⟩
    · cases looked

theorem takesIf_optionalWord (text : String) : TakesIf (optionalWord text) :=
  takesIf_takeIf _ 0

theorem takesIf_optionalSymbol {text : String} {count : Nat} (length : text.length = count + 1) :
    TakesIf (optionalSymbol text) := by
  rw [optionalSymbol, length]
  exact takesIf_takeIf _ count

theorem takesIf_whereAllowed (allowed : Bool) {part : Reader Bool} (takes : TakesIf part) :
    TakesIf (whereAllowed allowed part) := by
  rw [whereAllowed]
  split
  · exact takes
  · apply Yields.of_start
    exact fun origin => .pure fun _ => by simp

/-- If a look at the next tree succeeds, one tree is taken. -/
theorem yields_takeWhere_one (look : Look) :
    Yields (fun taken _ => ∃ tree rest, taken = [tree] ∧ look (tree :: rest))
      (takeWhere look 1) := by
  intro before value after done
  rcases run_bind_eq_ok_iff.mp done with ⟨found, between, saw, rest⟩
  cases saw
  split at rest
  · next looked =>
    rcases run_bind_eq_ok_iff.mp rest with ⟨tree, middle, took, stop⟩
    cases stop
    rcases yields_take _ _ _ took with ⟨_, takes, rfl⟩
    refine ⟨[tree], takes, tree, after.rest, rfl, ?_⟩
    rw [takes.rest] at looked
    exact looked
  · cases rest

theorem yields_word (text : String) :
    Yields (fun taken _ => ∃ span, taken = [.leaf ⟨.word, text, span⟩]) (word text) := by
  intro before value after done
  rcases yields_takeWhere_one _ before value after done with ⟨_, takes, tree, rest, rfl, looked⟩
  refine ⟨[tree], takes, ?_⟩
  unfold wordNext at looked
  split at looked
  · next same =>
    cases same
    cases beq_iff_eq.mp looked
    exact ⟨_, rfl⟩
  · cases looked

theorem yields_sign :
    Yields (fun taken _ => ∃ joint span, taken = [.leaf ⟨.mark joint, "#", span⟩])
      (symbol "#") := by
  intro before value after done
  rcases yields_takeWhere_one _ before value after done with ⟨_, takes, tree, rest, rfl, looked⟩
  refine ⟨[tree], takes, ?_⟩
  cases tree with
  | group => cases looked
  | leaf unit =>
      rcases unit with ⟨form, text, span⟩
      cases form with
      | mark joint =>
          have marked : ('#' != '\'' && text == '#'.toString) = true := looked
          rw [Bool.and_eq_true, beq_iff_eq] at marked
          cases marked.2
          exact ⟨joint, span, rfl⟩
      | _ => cases looked

/-! ## Names -/

/-- A look that succeeds at words only. -/
def SeesWords (look : Look) : Prop :=
  ∀ tree rest, look (tree :: rest) → ∃ text span, tree = .leaf ⟨.word, text, span⟩

theorem seesWords_wordNext (text : String) : SeesWords (wordNext text) := by
  intro tree rest looked
  unfold wordNext at looked
  split at looked
  · next same =>
    cases same
    exact ⟨_, _, rfl⟩
  · cases looked

theorem seesWords_identifierNext : SeesWords identifierNext := by
  intro tree rest looked
  unfold identifierNext at looked
  split at looked
  · next same =>
    cases same
    exact ⟨_, _, rfl⟩
  · cases looked

/-- No identifier is a word for references or changes. -/
theorem identifier_not_mark {text : String} {span : Span} {rest : List TokenTree}
    (looked : identifierNext (.leaf ⟨.word, text, span⟩ :: rest) = true) :
    text ≠ "ref" ∧ text ≠ "mut" := by
  have isRef : isKeyword "ref" = true := by decide
  have isMut : isKeyword "mut" = true := by decide
  refine ⟨?_, ?_⟩
  · rintro rfl
    simp [identifierNext, isRef] at looked
  · rintro rfl
    simp [identifierNext, isMut] at looked

theorem seesWords_anyWordNext : SeesWords anyWordNext := by
  intro tree rest looked
  unfold anyWordNext at looked
  split at looked
  · next same =>
    cases same
    exact ⟨_, _, rfl⟩
  · cases looked

theorem SeesWords.either {left right : Look} (first : SeesWords left) (second : SeesWords right) :
    SeesWords (either left right) := by
  intro tree rest looked
  rcases (Bool.or_eq_true _ _).mp looked with looked | looked
  · exact first tree rest looked
  · exact second tree rest looked

/-- A name is that of the word that is taken. -/
theorem yields_nameWhere (words : SeesWords look) :
    Yields
      (fun taken name => ∃ text span rest, taken = [.leaf ⟨.word, text, span⟩] ∧
        name = .name span ∧ look (.leaf ⟨.word, text, span⟩ :: rest))
      (nameWhere look) := by
  intro before value after done
  rcases run_bind_eq_ok_iff.mp done with ⟨start, _, here, rest⟩
  cases here
  rcases run_bind_eq_ok_iff.mp rest with ⟨_, middle, took, rest⟩
  rcases yields_takeWhere_one look _ _ _ took with ⟨_, takes, tree, trees, rfl, looked⟩
  rcases run_bind_eq_ok_iff.mp rest with ⟨span, _, spanned, same⟩
  cases spanned
  cases same
  rcases words tree trees looked with ⟨text, span, rfl⟩
  refine ⟨_, takes, text, span, trees, rfl, ?_, looked⟩
  rw [takes.position_eq (List.cons_ne_nil _ _), takes.last_eq (List.cons_ne_nil _ _)]
  rfl

/-- A name is that of the word that is taken, which the look has seen. -/
theorem Continues.named {origin : Cursor} {taken : List TokenTree} {blocks : List (List Outline)}
    {final : List TokenTree → α → Prop} {next : Outline → Reader α} (words : SeesWords look)
    (later : ∀ text span rest, look (.leaf ⟨.word, text, span⟩ :: rest) = true →
      Continues origin (taken ++ [.leaf ⟨.word, text, span⟩]) ([.name span] :: blocks) final
        (next (.name span))) :
    Continues origin taken blocks final (nameWhere look >>= next) := by
  refine Continues.yield (yields_nameWhere words) (?_ : ∀ more value, _ → Held more [[value]]) ?_
  · rintro _ _ ⟨text, span, rest, rfl, rfl, _⟩
    exact .name text span
  · rintro _ _ ⟨text, span, rest, rfl, rfl, looked⟩
    exact later text span rest looked

theorem moves_nameWhere (words : SeesWords look) : Moves ([·]) (nameWhere look) := by
  intro before value after done
  rcases yields_nameWhere words before value after done with
    ⟨_, takes, text, span, _, rfl, rfl, _⟩
  exact ⟨_, takes, List.cons_ne_nil _ _, .name text span⟩

theorem moves_identifier : Moves ([·]) identifier :=
  moves_nameWhere seesWords_identifierNext

theorem moves_anyWord : Moves ([·]) anyWord :=
  moves_nameWhere seesWords_anyWordNext

theorem moves_lifetime : Moves ([·]) lifetime := by
  apply Moves.of_start
  intro origin
  apply Continues.skip (idle_takeWhere _ _)
  intro _ _
  exact .lastMove moves_anyWord

/-- There is one name at most. -/
theorem yields_optionalLifetime :
    Yields (fun taken names => Held taken [names] ∧ (names = [] ∨ ∃ span, names = [.name span]))
      optionalLifetime := by
  apply Yields.of_start
  intro origin
  apply Continues.quiet (quiet_sees _)
  intro found
  split
  · rw [lifetime, bind_assoc]
    apply Continues.skip (idle_takeWhere _ _)
    intro _ _
    apply Continues.named seesWords_anyWordNext
    intro text span rest _
    exact .pure fun held => ⟨held, .inr ⟨span, rfl⟩⟩
  · exact .pure fun _ => ⟨.bare _, .inl rfl⟩

theorem reads_optionalLifetime : Reads id [] optionalLifetime :=
  .of_yields yields_optionalLifetime fun _ _ known => known.1

/-! ## Groups -/

/-- Of what stands in a group, an answer shows what its reader takes there. -/
theorem yields_inside {post : List TokenTree → α → Prop} (bracket : Bracket)
    (yields : Yields post reader) :
    Yields
      (fun taken value => ∃ opening closing inner more,
        taken = [.group (some bracket) opening closing (inner ++ more)] ∧ post inner value)
      (inside bracket reader) := by
  intro before value after done
  rcases run_bind_eq_ok_iff.mp done with ⟨cursor, _, got, rest⟩
  cases got
  rcases before with ⟨trees, limit, last, curly, leftover⟩
  dsimp only at rest
  split at rest
  · next other opening closing inner trees =>
    split at rest
    · next same =>
      cases same
      rcases run_bind_eq_ok_iff.mp rest with ⟨_, entered, enters, rest⟩
      cases enters
      rcases run_bind_eq_ok_iff.mp rest with ⟨answer, within, ran, rest⟩
      rcases run_bind_eq_ok_iff.mp rest with ⟨_, _, gotInner, rest⟩
      cases gotInner
      rcases run_bind_eq_ok_iff.mp rest with ⟨_, _, leaves, rest⟩
      cases leaves
      cases rest
      rcases yields _ _ _ ran with ⟨taken, takes, known⟩
      have all : inner = taken ++ within.rest := takes.rest
      exact ⟨[.group (some bracket) opening closing inner], ⟨rfl, rfl, rfl⟩, opening, closing,
        taken, within.rest, by rw [all], known⟩
    · cases rest
  · cases rest

theorem moves_inside (shows : α → List Outline) (bracket : Bracket)
    (reads : Reads shows [] reader) : Moves shows (inside bracket reader) := by
  intro before value after done
  rcases yields_inside bracket reads.yields before value after done with
    ⟨_, takes, opening, closing, inner, more, rfl, held⟩
  exact ⟨_, takes, List.cons_ne_nil _ _, held.in_group bracket opening closing more⟩

theorem reads_inside (bracket : Bracket) (reads : Reads shows [] reader) :
    Reads shows [] (inside bracket reader) :=
  (moves_inside shows bracket reads).reads

theorem yields_attempt {post : List TokenTree → α → Prop} (yields : Yields post reader) :
    Yields (fun taken answer => answer.elim (taken = []) (post taken)) (attempt reader) := by
  intro before value after done
  rcases run_bind_eq_ok_iff.mp done with ⟨cursor, _, got, rest⟩
  cases got
  split at rest
  · next ran =>
    rcases run_bind_eq_ok_iff.mp rest with ⟨_, _, sets, same⟩
    cases sets
    cases same
    exact yields _ _ _ ran
  · cases rest
    exact ⟨[], .refl _, rfl⟩

theorem reads_attempt (reads : Reads shows [] reader) :
    Reads (fun answer => answer.elim [] shows) [] (attempt reader) := by
  apply Reads.of_yields (yields_attempt reads.yields)
  rintro taken (_ | value) known
  · exact .bare taken
  · exact known

/-! ## Repetition -/

section Repetition

variable {step : σ → Reader (Option σ)} {stateShows : σ → List Outline}

/-- If each step keeps what its state shows and adds what it takes, so do all steps. -/
theorem reads_iterateFor
    (steps : ∀ state,
      Reads (fun answer => stateShows (answer.getD state)) [stateShows state] (step state))
    (bound : Nat) (state : σ) :
    Reads stateShows [stateShows state] (iterateFor step bound state) := by
  induction bound generalizing state with
  | zero => exact fun _ _ _ => .give (.refl _)
  | succ bound ih =>
      intro origin taken blocks
      apply Continues.readFrom (steps state) (.refl _)
      intro more answer
      cases answer with
      | none => exact .give (.refl _)
      | some next => exact ih next origin _ blocks

theorem reads_iterate (stateShows : σ → List Outline) (start : σ)
    (steps : ∀ state,
      Reads (fun answer => stateShows (answer.getD state)) [stateShows state] (step state)) :
    Reads stateShows [stateShows start] (iterate step start) := by
  intro origin taken blocks
  apply Continues.quiet quiet_get
  intro cursor
  exact reads_iterateFor steps _ start origin taken blocks

/-- What holds at first and is kept by each step holds after all steps. -/
theorem yields_iterateFor {fact : List TokenTree → σ → Prop}
    (steps : ∀ taken state, fact taken state →
      Yields (fun more answer => fact (taken ++ more) (answer.getD state)) (step state))
    (bound : Nat) (taken : List TokenTree) (state : σ) (begins : fact taken state) :
    Yields (fun more last => fact (taken ++ more) last) (iterateFor step bound state) := by
  induction bound generalizing taken state with
  | zero =>
      intro before value after done
      cases done
      exact ⟨[], .refl _, by simpa using begins⟩
  | succ bound ih =>
      intro before value after done
      rcases run_bind_eq_ok_iff.mp done with ⟨answer, middle, ran, rest⟩
      rcases steps taken state begins before answer middle ran with ⟨more, takes, kept⟩
      cases answer with
      | none =>
          cases rest
          exact ⟨more, takes, kept⟩
      | some next =>
          rcases ih (taken ++ more) next kept middle value after rest with
            ⟨further, takesMore, last⟩
          exact ⟨more ++ further, takes.trans takesMore, by simpa using last⟩

theorem yields_iterate (fact : List TokenTree → σ → Prop) {start : σ} (begins : fact [] start)
    (steps : ∀ taken state, fact taken state →
      Yields (fun more answer => fact (taken ++ more) (answer.getD state)) (step state)) :
    Yields fact (iterate step start) := by
  intro before value after done
  rcases run_bind_eq_ok_iff.mp done with ⟨cursor, _, got, rest⟩
  cases got
  exact yields_iterateFor steps _ [] start begins before value after rest

/-- A repetition of which the first step takes something. -/
theorem moves_iterate (stateShows : σ → List Outline) {start : σ}
    (first : Moves (fun answer => stateShows (answer.getD start)) (step start))
    (steps : ∀ state,
      Reads (fun answer => stateShows (answer.getD state)) [stateShows state] (step state)) :
    Moves stateShows (iterate step start) := by
  apply Moves.of_start
  intro origin
  apply Continues.quiet quiet_get
  intro cursor
  apply Continues.move first
  intro more answer some
  apply Continues.moved (by simpa using some)
  cases answer with
  | none => exact .give (.refl _)
  | some next => exact reads_iterateFor steps _ next origin _ []

/-- A repetition that begins with nothing. -/
theorem Continues.iterate {origin : Cursor} {taken : List TokenTree} {blocks : List (List Outline)}
    {final : List TokenTree → α → Prop} {next : σ → Reader α} {start : σ}
    (stateShows : σ → List Outline)
    (nothing : stateShows start = [])
    (steps : ∀ state,
      Reads (fun answer => stateShows (answer.getD state)) [stateShows state] (step state))
    (later : ∀ more state,
      Continues origin (taken ++ more) (stateShows state :: blocks) final (next state)) :
    Continues origin taken blocks final (iterate step start >>= next) := by
  apply Continues.readFrom (reads_iterate stateShows start steps)
  · rw [nothing]
    exact .empty blocks
  · exact later

end Repetition

/-- What values show together is what each of them shows, in order. -/
def Collects (shows : α → List Outline) (all : List α → List Outline) : Prop :=
  ∀ values, all values = values.flatMap shows

theorem Collects.reverse_cons {all : List α → List Outline} (collects : Collects shows all)
    (value : α) (values : List α) :
    all (value :: values).reverse = all values.reverse ++ shows value := by
  simp [collects _]

theorem collects_id : Collects ([·]) id := by
  intro values
  simp

theorem collects_flatten : Collects id List.flatten := by
  intro values
  simp

theorem collects_parts : Collects Bound.parts fun bounds => (bounds.map Bound.parts).flatten :=
  fun _ => List.flatMap_def.symm

variable {all : List α → List Outline}

theorem reads_gather {step : Reader (Option α)} (collects : Collects shows all)
    (reads : Reads (fun answer => answer.elim [] shows) [] step) : Reads all [] (gather step) := by
  intro origin taken blocks
  have steps : ∀ values : List α,
      Reads (fun answer => all (answer.getD values).reverse) [all values.reverse]
        (do return (← step).map (· :: values)) := by
    intro values origin taken blocks
    apply Continues.read reads
    intro more answer
    cases answer with
    | none => exact .give (.forget _ _)
    | some value =>
        apply Continues.give
        rw [Option.map_some, Option.getD_some, collects.reverse_cons]
        exact .append _ _ _
  apply Continues.iterate (fun values => all values.reverse) (collects []) steps
  intro more values
  exact .give (.refl _)

/-- A fact about each run that a step takes is one about all of them together. -/
theorem yields_gather (fact : List TokenTree → Prop) {step : Reader (Option α)} (nil : fact [])
    (append : ∀ front back, fact front → fact back → fact (front ++ back))
    (steps : Yields (fun taken _ => fact taken) step) :
    Yields (fun taken _ => fact taken) (gather step) := by
  apply Yields.of_start
  intro origin
  apply Continues.pass
  · apply yields_iterate fun taken (_ : List α) => fact taken
    · exact nil
    · intro taken values known
      apply Yields.of_start
      intro origin
      apply Continues.pass steps
      intro more answer kept
      exact .pure fun _ => append taken more known kept
  · exact fun more values known => .pure fun _ => known

theorem reads_everything (collects : Collects shows all) (reads : Reads shows [] reader) :
    Reads all [] (everything reader) := by
  apply reads_gather collects
  intro origin taken blocks
  apply Continues.skip (.of_quiet quiet_atEnd)
  intro _ ended
  split
  · exact .give (.empty _)
  · apply Continues.read reads
    intro _ value
    exact .give (.refl _)

theorem reads_separated (mark : String) (collects : Collects shows all)
    (reads : Reads shows [] reader) : Reads all [] (separated mark reader) := by
  apply reads_gather collects
  intro origin taken blocks
  apply Continues.skip (.of_quiet quiet_atEnd)
  intro _ ended
  split
  · exact .give (.empty _)
  · apply Continues.read reads
    intro _ value
    apply Continues.separator quiet_atEnd
    exact fun _ => .give (.refl _)

theorem reads_listed (mark : String) (stop : Look) (collects : Collects shows all)
    (reads : Reads shows [] reader) : Reads all [] (listed mark stop reader) := by
  apply reads_gather collects
  intro origin taken blocks
  apply Continues.skip (.of_quiet (quiet_sees stop))
  intro _ stopped
  split
  · exact .give (.empty _)
  · apply Continues.read reads
    intro _ value
    apply Continues.separator (quiet_sees stop)
    exact fun _ => .give (.refl _)

theorem reads_joined (mark : String) (stop : Look) (collects : Collects shows all)
    (reads : Reads shows [] reader) : Reads all [] (joined mark stop reader) := by
  have steps : ∀ state : List α × Bool,
      Reads (fun answer => all (answer.getD state).1.reverse) [all state.1.reverse]
        (do
          if state.2 || (← sees stop) then return none
          let value ← reader
          return some (value :: state.1, !(← optionalSymbol mark))) := by
    rintro ⟨values, done⟩ origin taken blocks
    apply Continues.skip (.of_quiet (quiet_sees stop))
    intro _ stopped
    split
    · exact .give (.refl _)
    · apply Continues.read reads
      intro _ value
      apply Continues.skip (idle_optionalSymbol mark)
      intro _ more
      apply Continues.give
      rw [Option.getD_some, collects.reverse_cons]
      exact .append _ _ _
  intro origin taken blocks
  apply Continues.iterate (fun state => all state.1.reverse) (collects []) steps
  rintro _ ⟨values, _⟩
  exact .give (.refl _)

end ProgramGraph.Grammar
