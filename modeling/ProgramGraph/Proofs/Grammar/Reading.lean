import ProgramGraph.Grammar.Reader
import ProgramGraph.Proofs.Grammar.Runs

/-!
# What readers show

A reader takes trees off the front of a level, and what it answers shows no more than these
trees hold: each mark of the answer is one that the trees bear, none is used twice, and the
declarations of the answer are those of runs among the trees.

While a sequence of readers goes on, the trees taken so far are kept together with the *blocks*
that were read from them, the last one first.  A reader that goes on from something read before
is *given* blocks, and replaces them by what it answers.
-/

namespace ProgramGraph.Grammar

open Source Outline

variable {α β σ : Type}

/-! ## Cursors -/

/-- From one place of a level to another some trees are taken. -/
structure Cursor.Takes (before : Cursor) (taken : List TokenTree) (after : Cursor) : Prop where
  rest : before.rest = taken ++ after.rest
  limit : after.limit = before.limit
  last : after.last = (taken.getLast?.map TokenTree.last).getD before.last

namespace Cursor

variable {before middle after : Cursor} {taken more : List TokenTree}

theorem Takes.refl (cursor : Cursor) : cursor.Takes [] cursor :=
  ⟨rfl, rfl, rfl⟩

theorem Takes.trans (first : before.Takes taken middle) (second : middle.Takes more after) :
    before.Takes (taken ++ more) after where
  rest := by rw [first.rest, second.rest, List.append_assoc]
  limit := second.limit.trans first.limit
  last := by
    rw [second.last, first.last, List.getLast?_append]
    cases more.getLast? <;> rfl

/-- The first of the trees that are taken is the one that comes next. -/
theorem Takes.position_eq (takes : before.Takes taken after) (some : taken ≠ []) :
    before.position = (TokenTree.extent taken).first := by
  cases taken with
  | nil => exact absurd rfl some
  | cons tree taken =>
      rw [position, takes.rest]
      rfl

/-- What was read last is the last of the trees that are taken. -/
theorem Takes.last_eq (takes : before.Takes taken after) (some : taken ≠ []) :
    after.last = (TokenTree.extent taken).last := by
  rw [takes.last, TokenTree.extent, List.getLast?_eq_some_getLast some]
  rfl

end Cursor

/-! ## Blocks -/

/-- How often blocks show a mark. -/
def tallies (mark : Mark) : List (List Outline) → Nat
  | [] => 0
  | block :: blocks => tallyAll mark block + tallies mark blocks

@[simp, grind =]
theorem tallies_nil {mark : Mark} : tallies mark [] = 0 :=
  rfl

@[simp, grind =]
theorem tallies_cons {mark : Mark} (block : List Outline) (blocks : List (List Outline)) :
    tallies mark (block :: blocks) = tallyAll mark block + tallies mark blocks :=
  rfl

/-- All blocks are sound. -/
def SoundBlocks (trees : List TokenTree) : List (List Outline) → Prop
  | [] => True
  | block :: blocks => SoundAll trees block ∧ SoundBlocks trees blocks

@[simp, grind =]
theorem soundBlocks_nil {trees : List TokenTree} : SoundBlocks trees [] ↔ True :=
  Iff.rfl

@[simp, grind =]
theorem soundBlocks_cons {trees : List TokenTree} (block : List Outline)
    (blocks : List (List Outline)) :
    SoundBlocks trees (block :: blocks) ↔ SoundAll trees block ∧ SoundBlocks trees blocks :=
  Iff.rfl

theorem SoundBlocks.mono {trees wider : List TokenTree} {blocks : List (List Outline)}
    (more : ∀ run, TokenTree.Within run trees → TokenTree.Within run wider)
    (sound : SoundBlocks trees blocks) : SoundBlocks wider blocks := by
  induction blocks with
  | nil => trivial
  | cons block blocks ih => exact ⟨sound.1.mono more, ih sound.2⟩

/-- Trees hold blocks: the blocks show each mark no more often than the trees bear it, and they
are sound. -/
structure Held (trees : List TokenTree) (blocks : List (List Outline)) : Prop where
  marks : ∃ marks, Bears (TokenTree.flatten trees) marks ∧
    ∀ mark, tallies mark blocks ≤ marks.count mark
  sound : SoundBlocks trees blocks

/-- Blocks may be put in place of others if they show no more. -/
structure Rearranges (blocks others : List (List Outline)) : Prop where
  tallies_le : ∀ mark, tallies mark others ≤ tallies mark blocks
  sound : ∀ trees, SoundBlocks trees blocks → SoundBlocks trees others

namespace Rearranges

variable {blocks others further : List (List Outline)}

theorem refl (blocks : List (List Outline)) : Rearranges blocks blocks :=
  ⟨fun _ => Nat.le_refl _, fun _ => id⟩

theorem trans (first : Rearranges blocks others) (second : Rearranges others further) :
    Rearranges blocks further where
  tallies_le mark := Nat.le_trans (second.tallies_le mark) (first.tallies_le mark)
  sound trees sound := second.sound trees (first.sound trees sound)

/-- The last block may be left out. -/
theorem forget (last : List Outline) (blocks : List (List Outline)) :
    Rearranges (last :: blocks) blocks where
  tallies_le mark := by
    rw [tallies_cons]
    omega
  sound trees sound := sound.2

theorem empty (blocks : List (List Outline)) : Rearranges blocks ([] :: blocks) :=
  ⟨fun mark => by simp, fun trees sound => ⟨trivial, sound⟩⟩

/-- All blocks may be left out. -/
theorem bare (blocks : List (List Outline)) : Rearranges blocks [[]] :=
  ⟨fun mark => by simp, fun trees _ => by simp⟩

/-- The last blocks may be left out. -/
theorem leave (front blocks : List (List Outline)) :
    Rearranges (front ++ blocks) ([] :: blocks) := by
  apply Rearranges.trans _ (.empty blocks)
  induction front with
  | nil => exact .refl blocks
  | cons block front ih => exact (Rearranges.forget block _).trans ih

/-- A block before the last one may be left out. -/
theorem keep (block last : List Outline) (blocks : List (List Outline)) :
    Rearranges (last :: block :: blocks) (last :: blocks) where
  tallies_le mark := by
    simp only [tallies_cons]
    omega
  sound trees sound := ⟨sound.1, sound.2.2⟩

/-- A name may be put before an element that repeats it. -/
theorem repeated {next : Outline} {span : Span} (outlines : List Outline)
    (blocks : List (List Outline)) (doubles : next.repeats span) :
    Rearranges ((next :: outlines) :: blocks) ((.name span :: next :: outlines) :: blocks) where
  tallies_le mark := by
    apply Nat.le_of_eq
    rw [tallies_cons, tallies_cons, tallyAll_repeated outlines doubles]
  sound trees sound := ⟨⟨trivial, sound.1⟩, sound.2⟩

/-- The last two blocks may be put together. -/
theorem append (block last : List Outline) (blocks : List (List Outline)) :
    Rearranges (last :: block :: blocks) ((block ++ last) :: blocks) where
  tallies_le mark := by
    have both : tallyAll mark (block ++ last) ≤ _ := tallyAll_append_le block last
    simp only [tallies_cons]
    omega
  sound trees sound := ⟨soundAll_append.mpr ⟨sound.2.1, sound.1⟩, sound.2.2⟩

end Rearranges

namespace Held

variable {trees more : List TokenTree} {blocks others : List (List Outline)} {block : List Outline}

theorem nothing (trees : List TokenTree) : Held trees [] :=
  ⟨⟨[], .none _, fun _ => Nat.le_refl 0⟩, trivial⟩

/-- Trees need not show anything. -/
theorem bare (trees : List TokenTree) : Held trees [[]] :=
  ⟨⟨[], .none _, fun _ => Nat.le_refl 0⟩, trivial, trivial⟩

theorem rearrange (held : Held trees blocks) (rearranges : Rearranges blocks others) :
    Held trees others := by
  rcases held with ⟨⟨marks, bears, counted⟩, sound⟩
  exact ⟨⟨marks, bears, fun mark => Nat.le_trans (rearranges.tallies_le mark) (counted mark)⟩,
    rearranges.sound trees sound⟩

/-- What further trees hold is added. -/
theorem add (held : Held trees blocks) (next : Held more [block]) :
    Held (trees ++ more) (block :: blocks) := by
  rcases held with ⟨⟨marks, bears, counted⟩, sound⟩
  rcases next with ⟨⟨others, bearsOthers, countedOthers⟩, soundOthers⟩
  constructor
  · refine ⟨marks ++ others, ?_, fun mark => ?_⟩
    · rw [TokenTree.flatten_append]
      exact bears.append bearsOthers
    · have first := counted mark
      have second := countedOthers mark
      rw [tallies_cons, tallies_nil] at second
      rw [tallies_cons, List.count_append]
      omega
  · exact ⟨soundOthers.1.mono fun run within => within.append_left trees,
      sound.mono fun run within => within.append_right more⟩

/-- A group holds what the first trees in it hold. -/
theorem in_group (held : Held trees blocks) (bracket : Bracket) (opening closing : Span)
    (more : List TokenTree) :
    Held [.group (some bracket) opening closing (trees ++ more)] blocks := by
  rcases held with ⟨⟨marks, bears, counted⟩, sound⟩
  constructor
  · refine ⟨marks, ?_, counted⟩
    have all : TokenTree.flatten [.group (some bracket) opening closing (trees ++ more)] =
        .opening bracket opening ::
          (TokenTree.flatten trees ++ (TokenTree.flatten more ++ [.closing bracket closing])) := by
      rw [← List.append_assoc, ← TokenTree.flatten_append]
      exact List.append_nil _
    rw [all]
    exact (bears.append_right _).skip _
  · exact sound.mono fun run within => within.in_group (some bracket) opening closing more

/-- A word holds its name. -/
theorem name (text : String) (span : Span) :
    Held [.leaf ⟨.word, text, span⟩] [[.name span]] := by
  refine ⟨⟨[.name span], .name text span .nothing, fun mark => ?_⟩, ⟨⟨trivial, trivial⟩, trivial⟩⟩
  rw [tallies_cons, tallies_nil, tallyAll_singleton, tally, List.count_singleton]
  split
  · next same => simp [same]
  · exact Nat.zero_le _

/-- The trees of a documentation attribute hold it. -/
theorem document (joint : Bool) (first opening closing : Span) (middle inner : List TokenTree)
    (text : String) :
    Held (.leaf ⟨.mark joint, "#", first⟩ ::
        (middle ++ [.group (some .square) opening closing inner]))
      [[.document ⟨first.first, closing.last⟩ text]] := by
  constructor
  · refine ⟨[.document ⟨first.first, closing.last⟩], ?_, fun mark => ?_⟩
    · have all : TokenTree.flatten (.leaf ⟨.mark joint, "#", first⟩ ::
          (middle ++ [.group (some .square) opening closing inner])) =
            .leaf ⟨.mark joint, "#", first⟩ ::
              ((TokenTree.flatten middle ++ .opening .square opening :: TokenTree.flatten inner) ++
                .closing .square closing :: []) := by
        rw [TokenTree.flatten_cons, TokenTree.flatten_append]
        simp [TokenTree.flatten, TokenTree.lexemes, TokenTree.lexemes.lexemesOfAll]
      rw [all]
      exact .document joint first closing _ .nothing
    · rw [tallies_cons, tallies_nil, tallyAll_singleton, tally, List.count_singleton]
      split
      · next same => simp [same]
      · exact Nat.zero_le _
  · exact ⟨⟨trivial, trivial⟩, trivial⟩

end Held

/-- Two sequences of outlines side by side in one outline. -/
def pair (attributes children : List Outline) : Outline :=
  .element (.expression .block) default attributes children

@[simp, grind =]
theorem tally_pair {mark : Mark} (attributes children : List Outline) :
    (pair attributes children).tally mark = tallyAll mark attributes + tallyAll mark children := by
  simp [pair]

@[simp, grind =]
theorem sound_pair {trees : List TokenTree} (attributes children : List Outline) :
    (pair attributes children).Sound trees ↔
      SoundAll trees attributes ∧ SoundAll trees children := by
  simp [pair]

/-- Two sequences become an element, which has to show the name that it declares. -/
theorem Held.element {trees : List TokenTree} {blocks : List (List Outline)} {form : Form}
    {span : Span} {attributes children : List Outline}
    (held : Held trees ([pair attributes children] :: blocks))
    (declares : form.declares → ∃ run word visible,
      Declares trees run word visible form span attributes children) :
    Held trees ([.element form span attributes children] :: blocks) := by
  rcases held with ⟨⟨marks, bears, counted⟩, ⟨both, _⟩, sound⟩
  rw [sound_pair] at both
  refine ⟨⟨marks, bears, fun mark => ?_⟩, ⟨⟨declares, both⟩, trivial⟩, sound⟩
  have all := counted mark
  rwa [tallies_cons, tallyAll_singleton, tally_pair] at all

/-- An element of all trees, which declares a name. -/
theorem Held.declaring {trees : List TokenTree} {rest : List (List Outline)} {form : Form}
    {children : List Outline} {word : Leaf} (visible : List Span)
    (held : Held trees (children :: rest)) (some : trees ≠ [])
    (declared : form.declared? trees = .some word)
    (shown : visible.map .name ++ [.name word.span] <+: children)
    (restricted : visible ≠ [] → TokenTree.IsRestricted trees) :
    Held trees ([.element form (TokenTree.extent trees) [] children] :: rest) := by
  have paired : Rearranges (children :: rest) ([pair [] children] :: rest) := by
    constructor <;> simp
  apply (held.rearrange paired).element
  exact fun _ => ⟨trees, word, visible, .refl trees, some, rfl, fun _ => rfl, declared, shown,
    restricted⟩

/-! ## Sequences of readers -/

/-- With `taken` taken since `origin` and `blocks` read from it, a reader goes on to an answer for
which `post` holds, together with all that is taken then. -/
def Continues (origin : Cursor) (taken : List TokenTree) (blocks : List (List Outline))
    (post : List TokenTree → α → Prop) (reader : Reader α) : Prop :=
  ∀ here, origin.Takes taken here → Held taken blocks →
    ∀ value after, reader.run here = .ok (value, after) →
      ∃ more, origin.Takes (taken ++ more) after ∧ post (taken ++ more) value

/-- The trees taken hold what an answer shows and some blocks before it. -/
def Gives (shows : α → List Outline) (blocks : List (List Outline)) (taken : List TokenTree)
    (value : α) : Prop :=
  Held taken (shows value :: blocks)

/-- Wherever it stands, a reader answers with something that shows the blocks it is given and
what it takes itself. -/
def Reads (shows : α → List Outline) (given : List (List Outline)) (reader : Reader α) : Prop :=
  ∀ origin taken blocks,
    Continues origin taken (given ++ blocks) (Gives shows blocks) reader

/-- From wherever it begins, a reader takes trees for which `post` holds together with its
answer. -/
def Yields (post : List TokenTree → α → Prop) (reader : Reader α) : Prop :=
  ∀ before value after, reader.run before = .ok (value, after) →
    ∃ taken, before.Takes taken after ∧ post taken value

/-- A reader takes something, and its answer shows it. -/
def Moves (shows : α → List Outline) (reader : Reader α) : Prop :=
  Yields (fun taken value => taken ≠ [] ∧ Held taken [shows value]) reader

/-- A reader that takes some trees. -/
def Idle (reader : Reader α) : Prop :=
  Yields (fun _ _ => True) reader

/-- A reader that takes nothing. -/
def Quiet (reader : Reader α) : Prop :=
  ∀ before value after, reader.run before = .ok (value, after) → after = before

theorem run_bind_eq_ok_iff {reader : Reader α} {next : α → Reader β} {before after : Cursor}
    {value : β} :
    (reader >>= next).run before = .ok (value, after) ↔
      ∃ first middle, reader.run before = .ok (first, middle) ∧
        (next first).run middle = .ok (value, after) := by
  rw [StateT.run_bind]
  cases reader.run before with
  | error position =>
      constructor
      · intro done
        cases done
      · rintro ⟨_, _, done, _⟩
        cases done
  | ok result =>
      constructor
      · exact fun done => ⟨result.1, result.2, rfl, done⟩
      · rintro ⟨_, _, same, done⟩
        cases same
        exact done

section Rules

variable {origin : Cursor} {taken : List TokenTree} {blocks given rest others : List (List Outline)}
  {post middle : List TokenTree → α → Prop} {final : List TokenTree → β → Prop}
  {reader : Reader α} {next : α → Reader β} {next' : Nat → Reader β} {toSpan : Span → Reader β}
  {shows : α → List Outline} {value : α}

namespace Continues

/-- What was read may be looked at in another way. -/
theorem rearrange (continues : Continues origin taken others post reader)
    (rearranges : Rearranges blocks others) : Continues origin taken blocks post reader :=
  fun here takes held => continues here takes (held.rearrange rearranges)

theorem weaken (continues : Continues origin taken blocks middle reader)
    (weaker : ∀ taken value, middle taken value → post taken value) :
    Continues origin taken blocks post reader := by
  intro here takes held value after done
  rcases continues here takes held value after done with ⟨more, takes, holds⟩
  exact ⟨more, takes, weaker _ _ holds⟩

protected theorem pure (done : Held taken blocks → post taken value) :
    Continues origin taken blocks post (pure value) := by
  intro here takes held answer after same
  cases same
  refine ⟨[], ?_, ?_⟩
  · rwa [List.append_nil]
  · rw [List.append_nil]
    exact done held

theorem give (rearranges : Rearranges blocks (shows value :: rest)) :
    Continues origin taken blocks (Gives shows rest) (pure value) :=
  .pure fun held => held.rearrange rearranges

theorem fail : Continues origin taken blocks post (Grammar.fail : Reader α) :=
  fun _ _ _ _ _ done => by cases done

theorem failAt (position : Nat) :
    Continues origin taken blocks post (Grammar.failAt position : Reader α) :=
  fun _ _ _ _ _ done => by cases done

protected theorem pure_bind (later : Continues origin taken blocks final (next value)) :
    Continues origin taken blocks final (pure value >>= next) := by
  rwa [LawfulMonad.pure_bind]

theorem fail_bind : Continues origin taken blocks final (Grammar.fail >>= next) := by
  intro _ _ _ _ _ done
  rcases run_bind_eq_ok_iff.mp done with ⟨_, _, ran, _⟩
  cases ran

theorem failAt_bind (position : Nat) :
    Continues origin taken blocks final (Grammar.failAt position >>= next) := by
  intro _ _ _ _ _ done
  rcases run_bind_eq_ok_iff.mp done with ⟨_, _, ran, _⟩
  cases ran

/-- A part that takes nothing. -/
theorem quiet (first : Quiet reader)
    (later : ∀ value, Continues origin taken blocks final (next value)) :
    Continues origin taken blocks final (reader >>= next) := by
  intro here takes held value after done
  rcases run_bind_eq_ok_iff.mp done with ⟨answer, middle, ran, continued⟩
  cases first here answer middle ran
  exact later answer here takes held value after continued

/-- A look tells something about the trees that follow those that are taken. -/
theorem seen {look : Look} {next : Bool → Reader β}
    (later : ∀ found, (∀ trees, origin.rest = taken ++ trees → look trees = found) →
      Continues origin taken blocks final (next found)) :
    Continues origin taken blocks final (sees look >>= next) := by
  intro here takes held value after done
  rcases run_bind_eq_ok_iff.mp done with ⟨answer, middle, ran, continued⟩
  cases ran
  refine later (look here.rest) (fun trees follow => ?_) here takes held value after continued
  rw [List.append_cancel_left (takes.rest.symm.trans follow)]

/-- No trees can follow. -/
theorem never (impossible : ∀ trees, origin.rest ≠ taken ++ trees) :
    Continues origin taken blocks post reader :=
  fun here takes _ _ _ _ => absurd takes.rest (impossible here.rest)

/-- At its beginning the next position is that of all that is taken then. -/
theorem atStart (later : Continues origin [] blocks final (next' origin.position)) :
    Continues origin [] blocks final (Grammar.here >>= next') := by
  intro here takes held value after done
  rcases run_bind_eq_ok_iff.mp done with ⟨start, middle, ran, continued⟩
  cases ran
  have same : here.position = origin.position := by
    rw [Cursor.position, Cursor.position, takes.rest, takes.limit]
    rfl
  rw [same] at continued
  exact later here takes held value after continued

/-- If something was taken, the stretch from the beginning is that of what was taken. -/
theorem spannedIf
    (later : ∀ span, (taken ≠ [] → span = TokenTree.extent taken) →
      Continues origin taken blocks final (toSpan span)) :
    Continues origin taken blocks final (spanFrom origin.position >>= toSpan) := by
  intro here takes held value after done
  rcases run_bind_eq_ok_iff.mp done with ⟨span, middle, ran, continued⟩
  cases ran
  refine later _ (fun some => ?_) here takes held value after continued
  rw [takes.position_eq some, takes.last_eq some]

/-- After something was taken, the stretch from the beginning is that of what was taken. -/
theorem spanned (some : taken ≠ [])
    (later : Continues origin taken blocks final (toSpan (TokenTree.extent taken))) :
    Continues origin taken blocks final (spanFrom origin.position >>= toSpan) :=
  spannedIf fun _ covered => covered some ▸ later

/-- A part of which it is known what it takes.  What it shows becomes the last block. -/
theorem yield (first : Yields post reader)
    (holds : ∀ more value, post more value → Held more [shows value])
    (later : ∀ more value, post more value →
      Continues origin (taken ++ more) (shows value :: blocks) final (next value)) :
    Continues origin taken blocks final (reader >>= next) := by
  intro here takes held value after done
  rcases run_bind_eq_ok_iff.mp done with ⟨answer, between, ran, continued⟩
  rcases first here answer between ran with ⟨more, takesMore, known⟩
  rcases later more answer known between (takes.trans takesMore)
    (held.add (holds more answer known)) value after continued with
    ⟨further, takesFurther, final⟩
  refine ⟨more ++ further, ?_, ?_⟩
  · rwa [← List.append_assoc]
  · rwa [← List.append_assoc]

/-- A part of which nothing is shown, although it is known what it takes. -/
theorem pass (first : Yields post reader)
    (later : ∀ more value, post more value →
      Continues origin (taken ++ more) blocks final (next value)) :
    Continues origin taken blocks final (reader >>= next) := by
  have bare : ∀ more value, post more value → Held more [(fun _ => [] : α → List Outline) value] :=
    fun more _ _ => .bare more
  exact yield first bare fun more value known =>
    (later more value known).rearrange (.forget [] blocks)

/-- A part of which nothing is shown. -/
theorem skip (first : Idle reader)
    (later : ∀ more value, Continues origin (taken ++ more) blocks final (next value)) :
    Continues origin taken blocks final (reader >>= next) :=
  pass first fun more value _ => later more value

/-- One part after another of which something is known then. -/
theorem follow {shownThen : α → List (List Outline)}
    (first : Continues origin taken blocks middle reader)
    (holds : ∀ taken value, middle taken value → Held taken (shownThen value))
    (later : ∀ more value, middle (taken ++ more) value →
      Continues origin (taken ++ more) (shownThen value) final (next value)) :
    Continues origin taken blocks final (reader >>= next) := by
  intro here takes held value after done
  rcases run_bind_eq_ok_iff.mp done with ⟨answer, between, ran, continued⟩
  rcases first here takes held answer between ran with ⟨more, takesMore, known⟩
  rcases later more answer known between takesMore (holds _ answer known) value after continued with
    ⟨further, takesFurther, final⟩
  refine ⟨more ++ further, ?_, ?_⟩
  · rwa [← List.append_assoc]
  · rwa [← List.append_assoc]

/-- One part after another that shows what is known then. -/
theorem chain (first : Continues origin taken blocks (Gives shows rest) reader)
    (later : ∀ more value,
      Continues origin (taken ++ more) (shows value :: rest) final (next value)) :
    Continues origin taken blocks final (reader >>= next) :=
  follow first (fun _ _ gives => gives) fun more value _ => later more value

/-- A part that is given the last blocks and replaces them by what it shows. -/
theorem readFrom (first : Reads shows given reader)
    (rearranges : Rearranges blocks (given ++ rest))
    (later : ∀ more value,
      Continues origin (taken ++ more) (shows value :: rest) final (next value)) :
    Continues origin taken blocks final (reader >>= next) :=
  chain ((first origin taken rest).rearrange rearranges) later

/-- A part that shows what it takes. -/
theorem read (first : Reads shows [] reader)
    (later : ∀ more value,
      Continues origin (taken ++ more) (shows value :: blocks) final (next value)) :
    Continues origin taken blocks final (reader >>= next) :=
  readFrom first (.refl blocks) later

/-- A part that takes something and shows it. -/
theorem move (first : Moves shows reader)
    (later : ∀ more value, more ≠ [] →
      Continues origin (taken ++ more) (shows value :: blocks) final (next value)) :
    Continues origin taken blocks final (reader >>= next) :=
  yield first (fun _ _ known => known.2) fun more value known => later more value known.1

/-- A fact about what is taken that stays true when more is taken. -/
theorem remembered (fact : List TokenTree → Prop)
    (stays : ∀ taken more, fact taken → fact (taken ++ more)) (known : fact taken)
    (continues : Continues origin taken blocks
      (fun all value => fact all → post all value) reader) :
    Continues origin taken blocks post reader := by
  intro here takes held value after done
  rcases continues here takes held value after done with ⟨more, takesMore, holds⟩
  exact ⟨more, takesMore, holds (stays taken more known)⟩

/-- Once something is taken, it stays so. -/
theorem moved (some : taken ≠ []) (continues : Continues origin taken blocks post reader) :
    Continues origin taken blocks (fun taken value => taken ≠ [] ∧ post taken value) reader :=
  remembered (· ≠ []) (fun _ more some => List.append_ne_nil_of_left_ne_nil some more)
    some (continues.weaken fun _ _ holds some => ⟨some, holds⟩)

/-- The last part, of which it is known what it takes. -/
theorem finish (first : Yields middle reader)
    (holds : ∀ more value, Held taken blocks → middle more value → post (taken ++ more) value) :
    Continues origin taken blocks post reader := by
  intro here takes held value after done
  rcases first here value after done with ⟨more, takesMore, known⟩
  exact ⟨more, takes.trans takesMore, holds more value held known⟩

/-- The last part, if it takes something. -/
theorem lastMove (first : Moves shows reader) :
    Continues origin taken blocks (fun taken value => taken ≠ [] ∧ Gives shows blocks taken value)
      reader :=
  finish first fun _ _ held known =>
    ⟨List.append_ne_nil_of_right_ne_nil taken known.1, held.add known.2⟩

/-- The last part. -/
theorem last (first : Reads shows given reader) (rearranges : Rearranges blocks (given ++ rest)) :
    Continues origin taken blocks (Gives shows rest) reader :=
  (first origin taken rest).rearrange rearranges

/-- One of two readers. -/
theorem choose {condition : Prop} [Decidable condition] {other : Reader α}
    (first : condition → Continues origin taken blocks post reader)
    (second : ¬condition → Continues origin taken blocks post other) :
    Continues origin taken blocks post (if condition then reader else other) := by
  split
  · next holds => exact first holds
  · next fails => exact second fails

/-- A part of which nothing is shown, or nothing. -/
theorem optionally {condition : Prop} [Decidable condition] {reader : Reader α} {other : Reader β}
    (idle : Idle other)
    (later : ∀ more, Continues origin (taken ++ more) blocks post reader) :
    Continues origin taken blocks post
      (if condition then other >>= fun _ => reader else reader) := by
  split
  · exact .skip idle fun more _ => later more
  · have nothing := later []
    rwa [List.append_nil] at nothing

/-- One of two readers, as a look tells. -/
theorem decided {condition : Reader Bool} {other : Reader α} (quiet : Quiet condition)
    (first : Continues origin taken blocks post reader)
    (second : Continues origin taken blocks post other) :
    Continues origin taken blocks post (do if ← condition then reader else other) :=
  .quiet quiet fun _ => .choose (fun _ => first) (fun _ => second)

/-- One of two parts, after which it goes on in the same way. -/
theorem eitherFrom {condition : Prop} [Decidable condition] {other : Reader α}
    (first : condition → Reads shows given reader) (second : ¬condition → Reads shows given other)
    (rearranges : Rearranges blocks (given ++ rest))
    (later : ∀ more value,
      Continues origin (taken ++ more) (shows value :: rest) final (next value)) :
    Continues origin taken blocks final
      (if condition then reader >>= next else other >>= next) := by
  split
  · next holds => exact readFrom (first holds) rearranges later
  · next fails => exact readFrom (second fails) rearranges later

theorem either {condition : Prop} [Decidable condition] {other : Reader α}
    (first : condition → Reads shows [] reader) (second : ¬condition → Reads shows [] other)
    (later : ∀ more value,
      Continues origin (taken ++ more) (shows value :: blocks) final (next value)) :
    Continues origin taken blocks final
      (if condition then reader >>= next else other >>= next) :=
  eitherFrom first second (.refl blocks) later

end Continues

theorem Yields.of_start
    (continues : ∀ origin, Continues origin [] [] post reader) : Yields post reader := by
  intro before value after done
  exact continues before before (.refl before) (.nothing []) value after done

theorem Yields.continues (yields : Yields post reader) (blocks : List (List Outline)) :
    Continues origin [] blocks post reader := by
  intro here takes held value after done
  rcases yields here value after done with ⟨taken, takesMore, known⟩
  exact ⟨taken, takes.trans takesMore, known⟩

/-- Two facts about what a reader takes hold of the same trees. -/
theorem Yields.both {other : List TokenTree → α → Prop} (first : Yields post reader)
    (second : Yields other reader) :
    Yields (fun taken value => post taken value ∧ other taken value) reader := by
  intro before value after done
  rcases first before value after done with ⟨taken, takes, known⟩
  rcases second before value after done with ⟨same, takesSame, knownSame⟩
  cases List.append_cancel_right (takes.rest.symm.trans takesSame.rest)
  exact ⟨taken, takes, known, knownSame⟩

namespace Reads

theorem yields (reads : Reads shows [] reader) :
    Yields (fun taken value => Held taken [shows value]) reader := by
  intro before value after done
  rcases reads before [] [] before (.refl before) (.nothing []) value after done with
    ⟨taken, takes, held⟩
  exact ⟨taken, takes, held⟩

/-- It is enough to look at what a reader takes itself. -/
theorem of_start (continues : ∀ origin, Continues origin [] [] (Gives shows []) reader) :
    Reads shows [] reader := by
  intro origin taken blocks here takes held value after done
  rcases continues here here (.refl here) (.nothing []) value after done with
    ⟨more, takesMore, gives⟩
  exact ⟨more, takes.trans takesMore, held.add gives⟩

theorem of_yields (yields : Yields post reader)
    (holds : ∀ taken value, post taken value → Held taken [shows value]) :
    Reads shows [] reader := by
  intro origin taken blocks here takes held value after done
  rcases yields here value after done with ⟨more, takesMore, known⟩
  exact ⟨more, takes.trans takesMore, held.add (holds more value known)⟩

theorem element {form : Form} (plain : form.declares = false) (start : Nat)
    (children : List Outline) :
    Reads ([·]) [children] (Grammar.element form start children) := by
  intro origin taken blocks
  apply Continues.quiet
  · intro before value after done
    cases done
    rfl
  intro span
  apply Continues.give
  constructor <;> simp [plain]

/-- An element without children. -/
theorem leaf {form : Form} (plain : form.declares = false) (start : Nat) :
    Reads ([·]) [] (Grammar.element form start []) := by
  intro origin taken blocks
  exact (element plain start [] origin taken blocks).rearrange (.empty blocks)

/-- An element with the children that are read. -/
theorem enclosing {form : Form} {children : Reader (List Outline)} (plain : form.declares = false)
    (start : Nat) (reads : Reads id [] children) :
    Reads ([·]) [] (do Grammar.element form start (← children)) :=
  fun _ _ _ => .read reads fun _ _ => (element plain start _) _ _ _

/-- What is given may be left out. -/
theorem forget (reads : Reads shows [] reader) (given : List (List Outline)) :
    Reads shows given reader := by
  intro origin taken blocks
  apply (reads origin taken blocks).rearrange
  induction given with
  | nil => exact .refl _
  | cons block given ih =>
      constructor
      · intro mark
        have less := ih.tallies_le mark
        simp only [List.nil_append, List.cons_append, tallies_cons] at less ⊢
        omega
      · exact fun trees sound => ih.sound trees sound.2

/-- An answer that is looked at in another way. -/
theorem map {shown : β → List Outline} {part : α → β}
    (reads : Reads (fun value => shown (part value)) given reader) :
    Reads shown given (do return part (← reader)) := by
  intro origin taken blocks
  apply Continues.readFrom reads (.refl _)
  intro _ value
  exact .give (.refl _)

/-- An answer in a list of its own. -/
theorem one {single : Reader Outline} (reads : Reads ([·]) [] single) :
    Reads id [] (do return [← single]) :=
  map reads

theorem none : Reads id [] (pure [] : Reader (List Outline)) :=
  fun _ _ blocks => .give (.empty blocks)

theorem fail : Reads shows given (Grammar.fail : Reader α) :=
  fun _ _ _ => .fail

/-- After a part of which nothing is shown. -/
theorem after {first : Reader β} {next : β → Reader α} (idle : Idle first)
    (later : ∀ value, Reads shows given (next value)) : Reads shows given (first >>= next) :=
  fun _ _ _ => .skip idle fun _ value => later value _ _ _

/-- One of two readers, after a part that tells which one. -/
theorem test {condition : Reader Bool} {other : Reader α} (idle : Idle condition)
    (first : Reads shows given reader) (second : Reads shows given other) :
    Reads shows given (do if ← condition then reader else other) :=
  after idle fun _ _ _ _ => .choose (fun _ => first _ _ _) (fun _ => second _ _ _)

end Reads

namespace Moves

theorem reads (moves : Moves shows reader) : Reads shows [] reader :=
  .of_yields moves fun _ _ known => known.2

theorem of_start
    (continues : ∀ origin,
      Continues origin [] [] (fun taken value => taken ≠ [] ∧ Gives shows [] taken value) reader) :
    Moves shows reader :=
  Yields.of_start continues

end Moves

namespace Idle

theorem of_yields (yields : Yields post reader) : Idle reader := by
  intro before value after done
  rcases yields before value after done with ⟨taken, takes, _⟩
  exact ⟨taken, takes, trivial⟩

theorem of_reads (reads : Reads shows [] reader) : Idle reader :=
  of_yields reads.yields

theorem of_quiet (quiet : Quiet reader) : Idle reader := by
  intro before value after done
  cases quiet before value after done
  exact ⟨[], .refl _, trivial⟩

protected theorem pure (value : α) : Idle (pure value : Reader α) := by
  intro before answer after same
  cases same
  exact ⟨[], .refl _, trivial⟩

theorem fail : Idle (Grammar.fail : Reader α) :=
  fun _ _ _ done => by cases done

protected theorem bind (first : Idle reader) (later : ∀ value, Idle (next value)) :
    Idle (reader >>= next) := by
  intro before value after done
  rcases run_bind_eq_ok_iff.mp done with ⟨answer, between, ran, rest⟩
  rcases first before answer between ran with ⟨taken, takes, _⟩
  rcases later answer between value after rest with ⟨more, takesMore, _⟩
  exact ⟨taken ++ more, takes.trans takesMore, trivial⟩

theorem reads (idle : Idle reader) : Reads (fun _ => []) [] reader :=
  .of_yields idle fun taken _ _ => .bare taken

end Idle

end Rules

/-! ## Nested syntax -/

/-- What a nested form shows. -/
def Goal.shows : (goal : Goal) → goal.Result → List Outline
  | .bound _ _, found => found.parts
  | .statements, outlines => outlines
  | .fields, outlines => outlines
  | .useTree _, names => names.getD []
  | .type _, outline => [outline]
  | .pattern, outline => [outline]
  | .unary _, outline => [outline]
  | .expression _, outline => [outline]
  | .early, outline => [outline]
  | .conditional, outline => [outline]
  | .operators _ _ _, outline => [outline]
  | .operand _ _, outline => [outline]
  | .item, outline => [outline]

/-- What a nested form goes on from. -/
def Goal.given : Goal → List (List Outline)
  | .operators left _ _ => [[left]]
  | _ => []

/-- An outline covers what is taken, and shows no more than that. -/
def Covering (taken : List TokenTree) (outline : Outline) : Prop :=
  (taken ≠ [] ∧ outline.span = TokenTree.extent taken) ∧ Held taken [[outline]]

/-- Readers of nested forms show what they take.  Types and bounds take something, and types cover
all that they take. -/
structure Faithful (nested : Nested) : Prop where
  reads : ∀ goal, Reads goal.shows goal.given (nested goal)
  covers : ∀ plus, Yields Covering (nested (.type plus))
  moves : ∀ capture constant, Moves Bound.parts (nested (.bound capture constant))

namespace Faithful

variable {nested : Nested} (faithful : Faithful nested)

include faithful

theorem type (plus : Bool) : Reads ([·]) [] (nested (.type plus)) :=
  faithful.reads (.type plus)

theorem bound (capture constant : Bool) : Reads Bound.parts [] (nested (.bound capture constant)) :=
  faithful.reads (.bound capture constant)

theorem pattern : Reads ([·]) [] (nested .pattern) :=
  faithful.reads .pattern

theorem unary (structs : Bool) : Reads ([·]) [] (nested (.unary structs)) :=
  faithful.reads (.unary structs)

theorem expression (structs : Bool) : Reads ([·]) [] (nested (.expression structs)) :=
  faithful.reads (.expression structs)

theorem early : Reads ([·]) [] (nested .early) :=
  faithful.reads .early

theorem conditional : Reads ([·]) [] (nested .conditional) :=
  faithful.reads .conditional

theorem operators (left : Outline) (structs : Bool) (base : Precedence) :
    Reads ([·]) [[left]] (nested (.operators left structs base)) :=
  faithful.reads (.operators left structs base)

theorem operand (structs : Bool) (base : Precedence) :
    Reads ([·]) [] (nested (.operand structs base)) :=
  faithful.reads (.operand structs base)

theorem statements : Reads id [] (nested .statements) :=
  faithful.reads .statements

theorem item : Reads ([·]) [] (nested .item) :=
  faithful.reads .item

theorem fields : Reads id [] (nested .fields) :=
  faithful.reads .fields

theorem useTree (root : Bool) : Reads (·.getD []) [] (nested (.useTree root)) :=
  faithful.reads (.useTree root)

end Faithful

/-- A type covers the trees that it is read from, and a pattern is given it. -/
theorem Continues.ascribed {nested : Nested} {origin : Cursor} {taken : List TokenTree}
    {blocks rest : List (List Outline)} {attributes : List Outline} {pattern : Outline}
    {plus : Bool} {final : List TokenTree → α → Prop} {next : Outline → Reader α}
    (faithful : Faithful nested)
    (rearranges : Rearranges blocks ([pattern] :: attributes :: rest))
    (later : ∀ more type,
      Continues origin (taken ++ more) ([.ascription attributes pattern type] :: rest) final
        (next type)) :
    Continues origin taken blocks final (nested (.type plus) >>= next) := by
  intro here takes held value after done
  rcases run_bind_eq_ok_iff.mp done with ⟨type, between, ran, continued⟩
  rcases faithful.covers plus here type between ran with
    ⟨more, takesMore, ⟨some, covered⟩, heldType⟩
  have all := (held.rearrange rearranges).add heldType
  have ascribed : Held (taken ++ more) ([.ascription attributes pattern type] :: rest) := by
    rcases all with ⟨⟨marks, bears, counted⟩, ⟨typeSound, _⟩, ⟨patternSound, _⟩, others, sound⟩
    refine ⟨⟨marks, bears, fun mark => ?_⟩, ⟨⟨others, patternSound, typeSound, more, ?_, some,
      covered⟩, trivial⟩, sound⟩
    · have all := counted mark
      simp only [tallies_cons, tallyAll_singleton, tally] at all ⊢
      omega
    · exact (TokenTree.Within.refl more).append_left taken
  rcases later more type between (takes.trans takesMore) ascribed value after continued with
    ⟨further, takesFurther, final⟩
  refine ⟨more ++ further, ?_, ?_⟩
  · rwa [← List.append_assoc]
  · rwa [← List.append_assoc]

end ProgramGraph.Grammar
