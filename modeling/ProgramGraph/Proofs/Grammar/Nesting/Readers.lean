import ProgramGraph.Proofs.Grammar.Nesting.Encloses

/-!
# Readers and what encloses their answers

What a reader shows fits into what it takes.  A reader that goes on from an operand is asked for
more: whatever trees carry the operand, these and those that are taken carry its answer.
-/

namespace ProgramGraph.Grammar

open Source Outline

variable {α β σ : Type} {reader : Reader α} {shows : α → List Outline}

/-- What a reader shows fits into what it takes. -/
def Nests (shows : α → List Outline) (reader : Reader α) : Prop :=
  Yields (fun taken value => Encloses taken (shows value)) reader

/-- What a reader shows fits into what it takes, and it takes something. -/
def NestsSome (shows : α → List Outline) (reader : Reader α) : Prop :=
  Yields (fun taken value => taken ≠ [] ∧ Encloses taken (shows value)) reader

/-- A reader takes something. -/
def TakesSome (reader : Reader α) : Prop :=
  Yields (fun taken _ => taken ≠ []) reader

/-- Whatever carries an operand carries an outline together with further trees. -/
def Extends (operand : Outline) (more : List TokenTree) (outline : Outline) : Prop :=
  ∀ front, Carries front operand → Carries (front ++ more) outline

/-! ## Going on from an operand -/

section Operands

variable {operand outline further : Outline} {taken more : List TokenTree} {parts : List Outline}
  {form : Form} {span : Span}

theorem Extends.refl (operand : Outline) : Extends operand [] operand := by
  intro front carries
  rwa [List.append_nil]

theorem Extends.trans (extends' : Extends operand taken outline)
    (next : Extends outline more further) : Extends operand (taken ++ more) further := by
  intro front carries
  rw [← List.append_assoc]
  exact next _ (extends' front carries)

/-- What stands between an operand and what goes on from it does not matter. -/
theorem Extends.after (taken : List TokenTree) (extends' : Extends operand more outline) :
    Extends operand (taken ++ more) outline := by
  intro front carries
  rw [← List.append_assoc]
  exact extends' _ carries.append_right

theorem Carries.of_extends (carries : Carries taken operand)
    (extends' : Extends operand more outline) : Carries (taken ++ more) outline :=
  extends' taken carries

end Operands

/-! ## Sequences of readers -/

section Rules

variable {origin : Cursor} {taken : List TokenTree} {blocks : List (List Outline)}
  {post middle : List TokenTree → α → Prop} {final : List TokenTree → β → Prop}
  {next : α → Reader β} {form : Form} {own parts : List Outline} {operand : Outline}

namespace Continues

/-- If something was taken, it began at the beginning. -/
theorem begun
    (later : (taken ≠ [] → origin.position = (TokenTree.extent taken).first) →
      Continues origin taken blocks post reader) :
    Continues origin taken blocks post reader :=
  fun here takes held => later takes.position_eq here takes held

/-- One part after another, of which it is known what they take together. -/
theorem proceed (first : Continues origin taken blocks middle reader)
    (later : ∀ more value, middle (taken ++ more) value →
      Continues origin (taken ++ more) [] final (next value)) :
    Continues origin taken blocks final (reader >>= next) := by
  have nothing : ∀ taken value, middle taken value →
      Held taken ((fun _ => [] : α → List (List Outline)) value) :=
    fun taken _ _ => .nothing taken
  exact follow first nothing later

/-- One of two parts, of which it is known what they take together with what was taken before. -/
theorem proceedEither {condition : Prop} [Decidable condition] {other : Reader α}
    (middle : List TokenTree → α → Prop)
    (first : condition → Continues origin taken blocks middle reader)
    (second : ¬condition → Continues origin taken blocks middle other)
    (later : ∀ more value, middle (taken ++ more) value →
      Continues origin (taken ++ more) [] final (next value)) :
    Continues origin taken blocks final
      (if condition then reader >>= next else other >>= next) := by
  split
  · next holds => exact proceed (first holds) later
  · next fails => exact proceed (second fails) later

/-- One of two parts, after which it goes on in the same way. -/
theorem passEither {condition : Prop} [Decidable condition] {other : Reader α}
    (first : condition → Yields post reader) (second : ¬condition → Yields post other)
    (later : ∀ more value, post more value →
      Continues origin (taken ++ more) blocks final (next value)) :
    Continues origin taken blocks final
      (if condition then reader >>= next else other >>= next) := by
  split
  · next holds => exact pass (first holds) later
  · next fails => exact pass (second fails) later

/-- What was shown before fits into all that is taken after a part of which nothing is shown. -/
theorem skipping {shown : List Outline} (fit : Encloses taken shown) (first : Idle reader)
    (later : ∀ all value, Encloses all shown → Continues origin all blocks final (next value)) :
    Continues origin taken blocks final (reader >>= next) :=
  skip first fun _ value => later _ value fit.append_right

/-- What a part shows is added to what was shown before. -/
theorem adding {shown : List Outline} (fit : Encloses taken shown) (first : Nests shows reader)
    (later : ∀ all value, Encloses all (shown ++ shows value) →
      Continues origin all blocks final (next value)) :
    Continues origin taken blocks final (reader >>= next) :=
  pass first fun _ value known =>
    later _ value (encloses_append.mpr ⟨fit.append_right, known.append_left⟩)

/-- What one of two parts shows is added to what was shown before. -/
theorem addingEither {condition : Prop} [Decidable condition] {other : Reader α}
    {shown : List Outline} (fit : Encloses taken shown) (first : condition → Nests shows reader)
    (second : ¬condition → Nests shows other)
    (later : ∀ all value, Encloses all (shown ++ shows value) →
      Continues origin all blocks final (next value)) :
    Continues origin taken blocks final
      (if condition then reader >>= next else other >>= next) := by
  split
  · next holds => exact adding fit (first holds) later
  · next fails => exact adding fit (second fails) later

/-- The last part, if it stands by itself. -/
theorem restart (first : Yields (fun more value => post (taken ++ more) value) reader) :
    Continues origin taken blocks post reader :=
  finish first fun _ _ _ known => known

/-- The last part, which begins where the trees end that were taken before. -/
theorem restarting
    (first : ∀ inner : Cursor,
      (origin.position =
        if taken = [] then inner.position else (TokenTree.extent taken).first) →
      Continues inner [] [] (fun more value => post (taken ++ more) value) reader) :
    Continues origin taken blocks post reader := by
  intro here takes held value after done
  have begins : origin.position =
      if taken = [] then here.position else (TokenTree.extent taken).first := by
    split
    · next none =>
      rw [Cursor.position, Cursor.position, takes.rest, takes.limit, none]
      rfl
    · next some => exact takes.position_eq some
  rcases first here begins here (.refl here) (.nothing []) value after done with
    ⟨more, takesMore, known⟩
  exact ⟨more, takes.trans takesMore, known⟩

/-- A part that is told where it begins. -/
theorem passHere {part : Nat → Reader α}
    (first : ∀ inner : Cursor, Continues inner [] [] post (part inner.position))
    (later : ∀ more value, post more value →
      Continues origin (taken ++ more) blocks final (next value)) :
    Continues origin taken blocks final (Grammar.here >>= fun start => part start >>= next) := by
  have yields : Yields post (Grammar.here >>= part) := by
    apply Yields.of_start
    exact fun inner => atStart (first inner)
  rw [← bind_assoc]
  exact pass yields later

/-- The stretch from some position to the end of what was taken. -/
theorem stretched {toSpan : Span → Reader β} (start : Nat)
    (later : ∀ span, span.first = start →
      (taken ≠ [] → span.last = (TokenTree.extent taken).last) →
      Continues origin taken blocks final (toSpan span)) :
    Continues origin taken blocks final (spanFrom start >>= toSpan) := by
  intro here takes held value after done
  rcases run_bind_eq_ok_iff.mp done with ⟨span, middle, ran, continued⟩
  cases ran
  exact later _ rfl takes.last_eq here takes held value after continued

/-- An element of all that was taken. -/
theorem element (some : taken ≠ []) (fit : Encloses taken parts) :
    Continues origin taken blocks Carries (Grammar.element form origin.position parts) := by
  apply spanned some
  exact .pure fun _ => carries_element some rfl (encloses_nil.mpr trivial) fit

/-- An element that begins with its first operand and ends with what was taken. -/
theorem extending (some : taken ≠ []) (fit : Encloses taken parts) :
    Continues origin taken blocks (Extends operand)
      (Grammar.element form operand.span.first (operand :: parts)) := by
  apply stretched
  intro span first last
  apply Continues.pure
  intro _ front carries
  apply carries.extend fit first
  rw [TokenTree.extent_append_last front some]
  exact last some

end Continues

theorem Yields.weaken (yields : Yields middle reader)
    (weaker : ∀ taken value, middle taken value → post taken value) : Yields post reader := by
  intro before value after done
  rcases yields before value after done with ⟨taken, takes, known⟩
  exact ⟨taken, takes, weaker taken value known⟩

theorem NestsSome.nests (nests : NestsSome shows reader) : Nests shows reader :=
  nests.weaken fun _ _ known => known.2

/-- What is carried is shown. -/
theorem nests_of_carries {reader : Reader Outline} (yields : Yields Carries reader) :
    Nests ([·]) reader :=
  yields.weaken fun _ _ carries => carries.encloses

namespace Nests

/-- An answer that is looked at in another way. -/
theorem map {shown : β → List Outline} {part : α → β}
    (nests : Nests (fun value => shown (part value)) reader) :
    Nests shown (do return part (← reader)) := by
  apply Yields.of_start
  intro origin
  apply Continues.pass nests
  exact fun _ _ fit => .pure fun _ => fit

/-- An answer in a list of its own. -/
theorem one {single : Reader Outline} (nests : Nests ([·]) single) :
    Nests id (do return [← single]) :=
  map nests

theorem none : Nests id (pure [] : Reader (List Outline)) := by
  apply Yields.of_start
  exact fun origin => .pure fun _ => encloses_nil.mpr trivial

end Nests

end Rules

/-! ## Single trees -/

theorem takesSome_take : TakesSome take :=
  yields_take.weaken fun _ tree only => by simp [only]

theorem takesSome_takeMany (count : Nat) : TakesSome (takeMany (count + 1)) := by
  apply Yields.of_start
  intro origin
  apply Continues.pass takesSome_take
  intro _ _ some
  apply Continues.finish (idle_takeMany count)
  exact fun _ _ _ _ => List.append_ne_nil_of_left_ne_nil some _

theorem takesSome_takeWhere (look : Look) (count : Nat) :
    TakesSome (takeWhere look (count + 1)) := by
  apply Yields.of_start
  intro origin
  apply Continues.quiet (quiet_sees look)
  intro found
  split
  · exact .restart (takesSome_takeMany count)
  · exact .fail

theorem takesSome_word (text : String) : TakesSome (word text) :=
  takesSome_takeWhere _ 0

theorem takesSome_symbol {text : String} {count : Nat} (length : text.length = count + 1) :
    TakesSome (symbol text) := by
  rw [symbol, length]
  exact takesSome_takeWhere _ count

theorem takesSome_literal : TakesSome literal := by
  apply Yields.of_start
  intro origin
  apply Continues.decided (quiet_sees _)
  · exact .restart (takesSome_takeWhere _ 1)
  · exact .restart (takesSome_takeWhere _ 0)

/-! ## Names -/

theorem nests_nameWhere {look : Look} (words : SeesWords look) : Nests ([·]) (nameWhere look) := by
  apply (yields_nameWhere words).weaken
  rintro _ _ ⟨text, span, _, rfl, rfl, _⟩
  exact encloses_name text span

theorem nests_identifier : Nests ([·]) identifier :=
  nests_nameWhere seesWords_identifierNext

theorem nests_anyWord : Nests ([·]) anyWord :=
  nests_nameWhere seesWords_anyWordNext

theorem nests_lifetime : Nests ([·]) lifetime := by
  apply Yields.of_start
  intro origin
  apply Continues.skip (idle_takeWhere _ _)
  intro _ _
  apply Continues.finish nests_anyWord
  exact fun _ _ _ fit => fit.append_left

theorem nests_optionalLifetime : Nests id optionalLifetime := by
  apply Yields.of_start
  intro origin
  apply Continues.decided (quiet_sees _)
  · exact .restart (Nests.one nests_lifetime)
  · exact .restart Nests.none

/-! ## Groups -/

theorem nests_inside (shows : α → List Outline) (bracket : Bracket) (nests : Nests shows reader) :
    NestsSome shows (inside bracket reader) := by
  apply (yields_inside bracket nests).weaken
  rintro _ _ ⟨opening, closing, inner, more, rfl, fit⟩
  exact ⟨by simp, fit.in_group _ opening closing more⟩

/-! ## Repetition -/

section Repetition

variable {all : List α → List Outline}

/-- What holds before and is kept by each step holds after all steps. -/
theorem Continues.iterating {origin : Cursor} {taken : List TokenTree}
    {blocks : List (List Outline)} {step : σ → Reader (Option σ)}
    (fact : List TokenTree → σ → Prop) {start : σ} (begins : fact taken start)
    (steps : ∀ taken state, fact taken state →
      Continues origin taken [] (fun all answer => fact all (answer.getD state)) (step state)) :
    Continues origin taken blocks fact (Grammar.iterate step start) := by
  have all : ∀ bound taken state, fact taken state →
      Continues origin taken [] fact (iterateFor step bound state) := by
    intro bound
    induction bound with
    | zero => exact fun taken state known => .pure fun _ => known
    | succ bound ih =>
        intro taken state known
        apply Continues.proceed (steps taken state known)
        intro more answer kept
        cases answer with
        | none => exact .pure fun _ => kept
        | some next => exact ih _ next kept
  apply Continues.quiet quiet_get
  exact fun cursor here takes _ => all _ taken start begins here takes (.nothing taken)

theorem nests_gather {step : Reader (Option α)} (collects : Collects shows all)
    (nests : Nests (fun answer => answer.elim [] shows) step) : Nests all (gather step) := by
  apply Yields.of_start
  intro origin
  apply Continues.proceed
  · apply Continues.iterating fun taken values => Encloses taken (all values.reverse)
    · rw [List.reverse_nil, collects]
      exact encloses_nil.mpr trivial
    intro taken values known
    apply Continues.pass nests
    intro more answer fit
    apply Continues.pure
    intro _
    cases answer with
    | none => exact known.append_right
    | some value =>
        rw [Option.map_some, Option.getD_some, collects.reverse_cons]
        exact encloses_append.mpr ⟨known.append_right, fit.append_left⟩
  · exact fun _ _ fit => .pure fun _ => fit

theorem nests_everything (collects : Collects shows all) (nests : Nests shows reader) :
    Nests all (everything reader) := by
  apply nests_gather collects
  apply Yields.of_start
  intro origin
  apply Continues.decided quiet_atEnd
  · exact .pure fun _ => encloses_nil.mpr trivial
  · apply Continues.pass nests
    exact fun _ _ fit => .pure fun _ => fit

theorem nests_separated (mark : String) (collects : Collects shows all)
    (nests : Nests shows reader) : Nests all (separated mark reader) := by
  apply nests_gather collects
  apply Yields.of_start
  intro origin
  apply Continues.quiet quiet_atEnd
  intro ended
  split
  · exact .pure fun _ => encloses_nil.mpr trivial
  · apply Continues.pass nests
    intro _ value fit
    apply Continues.separator quiet_atEnd
    exact fun _ => .pure fun _ => fit.append_right

theorem nests_listed (mark : String) (stop : Look) (collects : Collects shows all)
    (nests : Nests shows reader) : Nests all (listed mark stop reader) := by
  apply nests_gather collects
  apply Yields.of_start
  intro origin
  apply Continues.quiet (quiet_sees stop)
  intro stopped
  split
  · exact .pure fun _ => encloses_nil.mpr trivial
  · apply Continues.pass nests
    intro _ value fit
    apply Continues.separator (quiet_sees stop)
    exact fun _ => .pure fun _ => fit.append_right

theorem nests_joined (mark : String) (stop : Look) (collects : Collects shows all)
    (nests : Nests shows reader) : Nests all (joined mark stop reader) := by
  apply Yields.of_start
  intro origin
  apply Continues.proceed
  · apply Continues.iterating fun taken state => Encloses taken (all state.1.reverse)
    · rw [List.reverse_nil, collects]
      exact encloses_nil.mpr trivial
    rintro taken ⟨values, done⟩ known
    apply Continues.quiet (quiet_sees stop)
    intro stopped
    split
    · exact .pure fun _ => known
    · apply Continues.pass nests
      intro _ value fit
      apply Continues.skip (idle_optionalSymbol mark)
      intro _ goesOn
      apply Continues.pure
      intro _
      rw [Option.getD_some, collects.reverse_cons]
      exact encloses_append.mpr ⟨known.append_right.append_right, fit.append_left.append_right⟩
  · rintro _ ⟨values, _⟩ fit
    exact .pure fun _ => fit

end Repetition

/-! ## Nested syntax -/

/-- What is known of the answer of a nested form and of what it takes. -/
def Goal.nests : (goal : Goal) → List TokenTree → goal.Result → Prop
  | .bound _ _, taken, found => taken ≠ [] ∧ Encloses taken found.parts
  | .statements, taken, outlines => Encloses taken outlines
  | .fields, taken, outlines => Encloses taken outlines
  | .useTree _, taken, names => Encloses taken (names.getD [])
  | .operators left _ _, taken, outline => Extends left taken outline
  | .type _, taken, outline => Carries taken outline
  | .pattern, taken, outline => Carries taken outline
  | .unary _, taken, outline => Carries taken outline
  | .expression _, taken, outline => Carries taken outline
  | .early, taken, outline => Carries taken outline
  | .conditional, taken, outline => Carries taken outline
  | .operand _ _, taken, outline => Carries taken outline
  | .item, taken, outline => Carries taken outline

/-- Readers of nested forms show what they take, and it fits into that. -/
structure Orderly (nested : Nested) : Prop extends Faithful nested where
  yields : ∀ goal, Yields goal.nests (nested goal)

namespace Orderly

variable {nested : Nested} (orderly : Orderly nested)

include orderly

theorem type (plus : Bool) : Yields Carries (nested (.type plus)) :=
  orderly.yields (.type plus)

theorem types (plus : Bool) : Nests ([·]) (nested (.type plus)) :=
  nests_of_carries (orderly.type plus)

theorem bound (capture constant : Bool) :
    NestsSome Bound.parts (nested (.bound capture constant)) :=
  orderly.yields (.bound capture constant)

theorem pattern : Yields Carries (nested .pattern) :=
  orderly.yields .pattern

theorem unary (structs : Bool) : Yields Carries (nested (.unary structs)) :=
  orderly.yields (.unary structs)

theorem expression (structs : Bool) : Yields Carries (nested (.expression structs)) :=
  orderly.yields (.expression structs)

theorem expressions (structs : Bool) : Nests ([·]) (nested (.expression structs)) :=
  nests_of_carries (orderly.expression structs)

theorem early : Yields Carries (nested .early) :=
  orderly.yields .early

theorem conditional : Yields Carries (nested .conditional) :=
  orderly.yields .conditional

theorem operators (left : Outline) (structs : Bool) (base : Precedence) :
    Yields (Extends left) (nested (.operators left structs base)) :=
  orderly.yields (.operators left structs base)

theorem operand (structs : Bool) (base : Precedence) :
    Yields Carries (nested (.operand structs base)) :=
  orderly.yields (.operand structs base)

theorem statements : Nests id (nested .statements) :=
  orderly.yields .statements

theorem item : Yields Carries (nested .item) :=
  orderly.yields .item

theorem fields : Nests id (nested .fields) :=
  orderly.yields .fields

theorem useTree (root : Bool) : Nests (·.getD []) (nested (.useTree root)) :=
  orderly.yields (.useTree root)

end Orderly

end ProgramGraph.Grammar
