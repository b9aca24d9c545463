import ProgramGraph.Proofs.Grammar.Marks

/-!
# Declared names

An element of the syntax covers a run of trees that stand side by side.  Which name it declares
can be told from that run alone: a binding declares its first word, apart from the words for
references and changes, and an item declares the first such word after its keyword.

An outline is sound for the trees that it was read from if each of its declarations shows the
name that its run declares, and each type that a pattern is given covers a run.
-/

namespace ProgramGraph

open Source

namespace Source.TokenTree

/-! ## Runs -/

/-- Trees stand side by side among other trees, or in a group among them. -/
inductive Within (run : List TokenTree) : List TokenTree → Prop
  | here (before after : List TokenTree) : Within run (before ++ (run ++ after))
  | inside (before after : List TokenTree) (bracket : Option Bracket) (opening closing : Span)
      {trees : List TokenTree} :
      Within run trees → Within run (before ++ .group bracket opening closing trees :: after)

namespace Within

variable {run trees : List TokenTree}

theorem refl (run : List TokenTree) : Within run run := by
  have whole : Within run ([] ++ (run ++ [])) := .here [] []
  rwa [List.nil_append, List.append_nil] at whole

theorem append_right (within : Within run trees) (more : List TokenTree) :
    Within run (trees ++ more) := by
  cases within with
  | here before after =>
      rw [List.append_assoc, List.append_assoc]
      exact .here before (after ++ more)
  | inside before after bracket opening closing inner =>
      rw [List.append_assoc, List.cons_append]
      exact .inside before (after ++ more) bracket opening closing inner

theorem append_left (within : Within run trees) (more : List TokenTree) :
    Within run (more ++ trees) := by
  cases within with
  | here before after =>
      rw [← List.append_assoc]
      exact .here (more ++ before) after
  | inside before after bracket opening closing inner =>
      rw [← List.append_assoc]
      exact .inside (more ++ before) after bracket opening closing inner

/-- What stands in trees stands in a group that holds these trees. -/
theorem in_group (within : Within run trees) (bracket : Option Bracket) (opening closing : Span)
    (more : List TokenTree) : Within run [.group bracket opening closing (trees ++ more)] :=
  .inside [] [] bracket opening closing (within.append_right more)

end Within

/-- The stretch from the beginning of the first tree to the end of the last one. -/
def extent (run : List TokenTree) : Span where
  first := (run.head?.map first).getD 0
  last := (run.getLast?.map last).getD 0

theorem extent_between (first last : TokenTree) (between : List TokenTree) :
    extent (first :: (between ++ [last])) = ⟨first.first, last.last⟩ := by
  rw [extent, ← List.cons_append, List.getLast?_concat]
  rfl

/-- The words among trees, those in groups left out. -/
def words (run : List TokenTree) : List Leaf :=
  run.filterMap fun
    | .leaf ⟨.word, text, span⟩ => some ⟨.word, text, span⟩
    | _ => none

@[simp, grind =]
theorem words_append (front back : List TokenTree) :
    words (front ++ back) = words front ++ words back :=
  List.filterMap_append

@[simp]
theorem words_word (text : String) (span : Span) :
    words [.leaf ⟨.word, text, span⟩] = [⟨.word, text, span⟩] :=
  rfl

@[simp, grind =]
theorem words_nil : words [] = [] :=
  rfl

theorem words_cons (tree : TokenTree) (trees : List TokenTree) :
    words (tree :: trees) = words [tree] ++ words trees :=
  words_append [tree] trees

@[simp]
theorem words_group (bracket : Option Bracket) (opening closing : Span) (inner : List TokenTree) :
    words [.group bracket opening closing inner] = [] :=
  rfl

/-- Whether a visibility with brackets stands among trees. -/
def IsRestricted (run : List TokenTree) : Prop :=
  ∃ before span opening closing path after,
    run = before ++
      .leaf ⟨.word, "pub", span⟩ :: .group (some .round) opening closing path :: after

theorem IsRestricted.append {run : List TokenTree} (restricted : IsRestricted run)
    (more : List TokenTree) : IsRestricted (run ++ more) := by
  rcases restricted with ⟨before, span, opening, closing, path, after, rfl⟩
  exact ⟨before, span, opening, closing, path, after ++ more, by simp⟩

theorem IsRestricted.prepend {run : List TokenTree} (restricted : IsRestricted run)
    (more : List TokenTree) : IsRestricted (more ++ run) := by
  rcases restricted with ⟨before, span, opening, closing, path, after, rfl⟩
  exact ⟨more ++ before, span, opening, closing, path, after, by simp⟩

end Source.TokenTree

/-! ## Declarations -/

namespace Form

/-- The word that announces the name of an item. -/
def keyword? : Form → Option String
  | item .constItem => "const"
  | item .enumItem => "enum"
  | item .fnItem => "fn"
  | item .modItem => "mod"
  | item .staticItem => "static"
  | item .structItem => "struct"
  | item .traitItem => "trait"
  | item .typeItem => "type"
  | item .unionItem => "union"
  | _ => none

/-- Whether an element declares a name itself. -/
def declares (form : Form) : Bool :=
  form == pattern .binding || form.keyword?.isSome

@[simp, grind =]
theorem declares_statement (form : StatementForm) : (statement form).declares = false :=
  rfl

@[simp, grind =]
theorem declares_expression (form : ExpressionForm) : (expression form).declares = false :=
  rfl

@[simp, grind =]
theorem declares_type (form : TypeForm) : (type form).declares = false :=
  rfl

@[simp, grind =]
theorem declares_pattern (form : PatternForm) : (pattern form).declares = (form == .binding) := by
  cases form <;> rfl

/-- The words from which the name is taken that an element declares. -/
def wordsAfter : Option String → List Leaf → List Leaf
  | none, words => words
  | some keyword, words => (words.dropWhile fun word => word.text != keyword).drop 1

/-- The name that an element declares which covers a run. -/
def declared? (form : Form) (run : List TokenTree) : Option Leaf :=
  (wordsAfter form.keyword? (TokenTree.words run)).find? fun word =>
    word.text != "ref" && word.text != "mut"

section Declared

variable {before between after : List TokenTree} {text keyword : String} {span place : Span}

/-- The words for references and changes are passed over. -/
theorem find?_marks {marks : List Leaf}
    (isMark : ∀ word ∈ marks, word.text = "ref" ∨ word.text = "mut") :
    (marks.find? fun word => word.text != "ref" && word.text != "mut") = none := by
  rw [List.find?_eq_none]
  intro word member
  rcases isMark word member with same | same <;> simp [same]

/-- A binding declares the word after the words for references and changes. -/
theorem declared?_binding
    (marks : ∀ word ∈ TokenTree.words before, word.text = "ref" ∨ word.text = "mut")
    (notRef : text ≠ "ref") (notMut : text ≠ "mut") :
    (pattern .binding).declared? (before ++ .leaf ⟨.word, text, span⟩ :: after) =
      some ⟨.word, text, span⟩ := by
  rw [declared?, TokenTree.words_append, TokenTree.words_cons, TokenTree.words_word]
  simp only [keyword?, wordsAfter, List.find?_append, find?_marks marks]
  simp [notRef, notMut]

/-- An item declares the word after its keyword, perhaps with words for changes between. -/
theorem declared?_item {form : Form} (announced : form.keyword? = some keyword)
    (others : ∀ word ∈ TokenTree.words before, word.text ≠ keyword)
    (marks : ∀ word ∈ TokenTree.words between, word.text = "ref" ∨ word.text = "mut")
    (notRef : text ≠ "ref") (notMut : text ≠ "mut") :
    form.declared? (before ++ .leaf ⟨.word, keyword, place⟩ ::
        (between ++ .leaf ⟨.word, text, span⟩ :: after)) =
      some ⟨.word, text, span⟩ := by
  have dropped : (TokenTree.words before ++ ⟨.word, keyword, place⟩ ::
      TokenTree.words (between ++ .leaf ⟨.word, text, span⟩ :: after)).dropWhile
        (fun word => word.text != keyword) =
      ⟨.word, keyword, place⟩ ::
        TokenTree.words (between ++ .leaf ⟨.word, text, span⟩ :: after) := by
    rw [List.dropWhile_append_of_pos (by simpa using others)]
    simp
  rw [declared?, announced, TokenTree.words_append, TokenTree.words_cons, TokenTree.words_word,
    wordsAfter, List.singleton_append, dropped, List.drop_one, List.tail_cons,
    TokenTree.words_append, TokenTree.words_cons, TokenTree.words_word, List.find?_append,
    find?_marks marks]
  simp [notRef, notMut]

/-- A name stays declared when more trees follow. -/
theorem declared?_append {form : Form} {run : List TokenTree} {word : Leaf}
    (declared : form.declared? run = some word) (more : List TokenTree) :
    form.declared? (run ++ more) = some word := by
  rw [declared?, TokenTree.words_append]
  rw [declared?] at declared
  cases announced : form.keyword? with
  | none =>
      rw [announced, wordsAfter] at declared
      rw [wordsAfter, List.find?_append, declared]
      rfl
  | some keyword =>
      rw [announced, wordsAfter] at declared
      rw [wordsAfter, List.dropWhile_append]
      -- the keyword itself stands among the words of the run
      cases found : (TokenTree.words run).dropWhile fun word => word.text != keyword with
      | nil =>
          rw [found] at declared
          cases declared
      | cons first words =>
          rw [found] at declared
          rw [List.isEmpty_cons, if_neg Bool.false_ne_true, List.cons_append, List.drop_one,
            List.tail_cons, List.find?_append]
          rw [List.drop_one, List.tail_cons] at declared
          rw [declared]
          rfl

theorem ne_nil_of_declared? {form : Form} {run : List TokenTree} {word : Leaf}
    (declared : form.declared? run = some word) : run ≠ [] := by
  rintro rfl
  rw [declared?, TokenTree.words_nil] at declared
  cases announced : form.keyword? with
  | none =>
      rw [announced] at declared
      cases declared
  | some keyword =>
      rw [announced] at declared
      cases declared

end Declared

end Form

namespace Outline

/-- An element shows the name that it declares: after its attributes it covers a run, and after
the path of a visibility with brackets its first child is the name that the run declares. -/
structure Declares (trees run : List TokenTree) (word : Leaf) (visible : List Span) (form : Form)
    (span : Span) (attributes children : List Outline) : Prop where
  within : TokenTree.Within run trees
  nonempty : run ≠ []
  last : span.last = (TokenTree.extent run).last
  first : attributes = [] → span.first = (TokenTree.extent run).first
  declared : form.declared? run = some word
  children : visible.map name ++ [name word.span] <+: children
  restricted : visible ≠ [] → TokenTree.IsRestricted run

/-- A stretch is that of a run. -/
def Covers (trees : List TokenTree) (span : Span) : Prop :=
  ∃ run, TokenTree.Within run trees ∧ run ≠ [] ∧ span = TokenTree.extent run

mutual

/-- Each declaration in an outline shows its name, and each type that a pattern is given covers a
run. -/
def Sound (trees : List TokenTree) : Outline → Prop
  | element form span attributes children =>
      (form.declares → ∃ run word visible,
        Declares trees run word visible form span attributes children) ∧
      SoundAll trees attributes ∧ SoundAll trees children
  | name _ => True
  | document _ _ => True
  | ascription attributes pattern type =>
      SoundAll trees attributes ∧ pattern.Sound trees ∧ type.Sound trees ∧ Covers trees type.span

/-- All outlines are sound. -/
def SoundAll (trees : List TokenTree) : List Outline → Prop
  | [] => True
  | outline :: outlines => outline.Sound trees ∧ SoundAll trees outlines

end

attribute [simp, grind =] Sound

variable {trees wider : List TokenTree} {outline : Outline} {front back new : List Outline}

@[simp, grind =]
theorem soundAll_nil : SoundAll trees [] ↔ True :=
  Iff.rfl

@[simp, grind =]
theorem soundAll_cons : SoundAll trees (outline :: front) ↔
    outline.Sound trees ∧ SoundAll trees front :=
  Iff.rfl

@[simp, grind =]
theorem soundAll_append : SoundAll trees (front ++ back) ↔
    SoundAll trees front ∧ SoundAll trees back := by
  induction front with
  | nil => exact (and_iff_right trivial).symm
  | cons outline front ih => rw [List.cons_append, soundAll_cons, soundAll_cons, ih, and_assoc]

@[grind ←]
theorem Sound.children (sound : outline.Sound trees) : SoundAll trees outline.children := by
  cases outline with
  | element => exact sound.2.2
  | _ => trivial

@[grind ←]
theorem SoundAll.childrenOf (sound : SoundAll trees front) :
    SoundAll trees (front.map Outline.children).flatten := by
  induction front with
  | nil => trivial
  | cons outline front ih => exact soundAll_append.mpr ⟨Sound.children sound.1, ih sound.2⟩

@[grind ←]
theorem Sound.attributes (sound : outline.Sound trees) : SoundAll trees outline.attributes := by
  cases outline with
  | element => exact sound.2.1
  | _ => trivial

mutual

/-- What is sound for some trees is sound for trees with the same runs and more. -/
theorem Sound.mono (more : ∀ run, TokenTree.Within run trees → TokenTree.Within run wider) :
    {outline : Outline} → outline.Sound trees → outline.Sound wider
  | element .., sound => by
      refine ⟨?_, SoundAll.mono more sound.2.1, SoundAll.mono more sound.2.2⟩
      intro declares
      rcases sound.1 declares with ⟨run, word, visible, declared⟩
      exact ⟨run, word, visible, { declared with within := more run declared.within }⟩
  | name _, _ => trivial
  | document .., _ => trivial
  | ascription .., ⟨attributes, pattern, type, run, within, covered⟩ =>
      ⟨SoundAll.mono more attributes, Sound.mono more pattern, Sound.mono more type,
        run, more run within, covered⟩

theorem SoundAll.mono (more : ∀ run, TokenTree.Within run trees → TokenTree.Within run wider) :
    {outlines : List Outline} → SoundAll trees outlines → SoundAll wider outlines
  | [], _ => trivial
  | _ :: _, ⟨sound, rest⟩ => ⟨Sound.mono more sound, SoundAll.mono more rest⟩

end

/-- Attributes that are put before an element leave its declaration as it is. -/
@[grind ←]
theorem Sound.attach (start : Nat) (sound : outline.Sound trees) (newSound : SoundAll trees new) :
    (outline.attach start new).Sound trees := by
  cases outline with
  | element form span attributes children =>
      rw [Outline.attach]
      split
      · exact sound
      · next kept =>
        refine ⟨?_, soundAll_append.mpr ⟨newSound, sound.2.1⟩, sound.2.2⟩
        intro declares
        rcases sound.1 declares with ⟨run, word, visible, declared⟩
        refine ⟨run, word, visible, { declared with first := ?_ }⟩
        intro none
        rw [List.append_eq_nil_iff] at none
        simp [none.1] at kept
  | _ => exact sound

@[grind ←]
theorem Sound.attachLeft (start : Nat) (sound : outline.Sound trees)
    (newSound : SoundAll trees new) : (outline.attachLeft start new).Sound trees := by
  fun_induction Outline.attachLeft start new outline with
  | case1 => exact sound
  | case2 form span attributes left children operator given left' first ih =>
      exact ⟨fun declares => (by cases declares), sound.2.1, ih sound.2.2.1, sound.2.2.2⟩
  | case3 => exact sound.attach start newSound
  | case4 => exact sound.attach start newSound

end Outline

end ProgramGraph
