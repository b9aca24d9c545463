import ProgramGraph.Proofs.Extraction.Chain
import ProgramGraph.Proofs.Extraction.Documents
import ProgramGraph.Proofs.Grammar.File
import ProgramGraph.Proofs.Source.Shift

/-!
# The order of marks

The marks of a text come one after the other: a name ends before the next mark begins, and so
does documentation.  Therefore an outline that shows each mark no more often than the text
bears it shows every name once, except that it may repeat a name, it shows no name from within
documentation, and its stretches of documentation have no character in common.
-/

namespace ProgramGraph

open Source

/-! ## Lexemes at the ends of marks -/

namespace Source

namespace Lexeme

/-- Whether a mark may begin with a lexeme. -/
def beginsMark : Lexeme → Bool
  | .leaf ⟨.word, _, _⟩ => true
  | .leaf ⟨.mark _, text, _⟩ => text == "#"
  | _ => false

/-- Whether a mark may end with a lexeme. -/
def endsMark : Lexeme → Bool
  | .leaf ⟨.word, _, _⟩ => true
  | .closing .square _ => true
  | _ => false

/-- A mark that ends with the first lexeme lies before one that begins with the next. -/
def Precedes (first next : Lexeme) : Prop :=
  first.endsMark → next.beginsMark → first.span.last ≤ next.span.first

end Lexeme

/-- Within a documentation comment no mark begins behind the end of another. -/
theorem pairwise_commentLexemes (inner : Bool) (words : List Char) (span : Span) :
    (Chunk.commentLexemes inner words span).Pairwise Lexeme.Precedes := by
  cases inner <;>
    simp [Chunk.commentLexemes, Lexeme.Precedes, Lexeme.beginsMark, Lexeme.endsMark]

/-- The lexemes of a text keep the order of marks. -/
theorem pairwise_precedes (chars : List Char) :
    ((pieces chars).flatMap Piece.lexemes).Pairwise Lexeme.Precedes := by
  apply pairwise_lexemes_of chars
  · exact fun first next _ before _ _ _ => before
  · intro piece _ comment
    rcases exists_commentLexemes comment with ⟨inner, words, span, lexemes⟩
    rw [lexemes]
    exact pairwise_commentLexemes inner words span

/-- A lexeme of a text is not empty. -/
theorem positive_of_mem_lexemes {chars : List Char} {lexeme : Lexeme}
    (member : lexeme ∈ (pieces chars).flatMap Piece.lexemes) :
    lexeme.span.first < lexeme.span.last := by
  rcases List.mem_flatMap.mp member with ⟨piece, inPieces, inPiece⟩
  exact ((of_mem_pieces inPieces).within inPiece).2.1

/-- A lexeme of a text begins before the end of each one behind it. -/
theorem pairwise_reaches (chars : List Char) : ((pieces chars).flatMap Piece.lexemes).Pairwise
    fun first next => first.span.first < next.span.last := by
  apply pairwise_lexemes_of chars
  · intro first next positive before nextPositive
    omega
  · intro piece member comment
    rcases exists_commentLexemes comment with ⟨inner, words, span, lexemes⟩
    have sign : .leaf ⟨.mark false, "#", span⟩ ∈ piece.lexemes := lexemes ▸ .head _
    have positive : span.first < span.last := ((of_mem_pieces member).within sign).2.1
    rw [lexemes]
    cases inner <;> simp [Chunk.commentLexemes, Lexeme.span, Span.head, Span.tail] <;> omega

end Source

/-! ## Marks in order -/

namespace Mark

/-- The stretch of a mark. -/
def span : Mark → Span
  | name span => span
  | document span => span

end Mark

namespace Bears

variable {lexemes : List Lexeme} {marks : List Mark} {mark : Mark} {span : Span}

/-- A mark begins where one of the lexemes does. -/
theorem exists_first (bears : Bears lexemes marks) (member : mark ∈ marks) :
    ∃ lexeme ∈ lexemes, lexeme.beginsMark ∧ lexeme.span.first = mark.span.first := by
  induction bears with
  | nothing => cases member
  | skip lexeme _ ih =>
      rcases ih member with ⟨found, inRest, begins⟩
      exact ⟨found, .tail _ inRest, begins⟩
  | name text span _ ih =>
      rcases List.mem_cons.mp member with rfl | later
      · exact ⟨_, .head _, rfl, rfl⟩
      · rcases ih later with ⟨found, inRest, begins⟩
        exact ⟨found, .tail _ inRest, begins⟩
  | document joint first last inner _ ih =>
      rcases List.mem_cons.mp member with rfl | later
      · exact ⟨_, .head _, rfl, rfl⟩
      · rcases ih later with ⟨found, inRest, begins⟩
        exact ⟨found, .tail _ (List.mem_append_right _ (.tail _ inRest)), begins⟩

/-- A name is that of a word. -/
theorem exists_word (bears : Bears lexemes marks) (member : .name span ∈ marks) :
    ∃ text, .leaf ⟨.word, text, span⟩ ∈ lexemes := by
  induction bears with
  | nothing => cases member
  | skip lexeme _ ih =>
      rcases ih member with ⟨text, inRest⟩
      exact ⟨text, .tail _ inRest⟩
  | name text _ _ ih =>
      rcases List.mem_cons.mp member with same | later
      · cases same
        exact ⟨text, .head _⟩
      · rcases ih later with ⟨text, inRest⟩
        exact ⟨text, .tail _ inRest⟩
  | document joint first last inner _ ih =>
      rcases List.mem_cons.mp member with same | later
      · cases same
      · rcases ih later with ⟨text, inRest⟩
        exact ⟨text, .tail _ (List.mem_append_right _ (.tail _ inRest))⟩

/-- The marks of lexemes that keep the order follow each other. -/
theorem pairwise (bears : Bears lexemes marks) (ordered : lexemes.Pairwise Lexeme.Precedes) :
    marks.Pairwise fun mark next => mark.span.last ≤ next.span.first := by
  induction bears with
  | nothing => exact .nil
  | skip lexeme _ ih => exact ih ordered.of_cons
  | name text span rest ih =>
      rcases List.pairwise_cons.mp ordered with ⟨before, ordered⟩
      refine .cons ?_ (ih ordered)
      intro next later
      rcases rest.exists_first later with ⟨lexeme, member, begins, same⟩
      exact same ▸ before lexeme member rfl begins
  | document joint first last inner rest ih =>
      have behind := (List.pairwise_append.mp ordered.of_cons).2.1
      rcases List.pairwise_cons.mp behind with ⟨before, ordered⟩
      refine .cons ?_ (ih ordered)
      intro next later
      rcases rest.exists_first later with ⟨lexeme, member, begins, same⟩
      exact same ▸ before lexeme member rfl begins

/-- Documentation ends behind its beginning. -/
theorem filled (bears : Bears lexemes marks)
    (reaches : lexemes.Pairwise fun first next => first.span.first < next.span.last)
    (member : .document span ∈ marks) : span.first < span.last := by
  induction bears with
  | nothing => cases member
  | skip lexeme _ ih => exact ih reaches.of_cons member
  | name text place _ ih =>
      rcases List.mem_cons.mp member with same | later
      · cases same
      · exact ih reaches.of_cons later
  | document joint first last inner _ ih =>
      rcases List.pairwise_cons.mp reaches with ⟨before, reaches⟩
      rcases List.mem_cons.mp member with same | later
      · cases same
        exact before _ (List.mem_append_right inner (.head _))
      · exact ih (List.pairwise_append.mp reaches).2.1.of_cons later

end Bears

/-- In marks that follow each other, one that is not empty stands no more than once: a mark that
stands twice would end before it begins. -/
theorem Mark.count_le_one {marks : List Mark} {mark : Mark}
    (inOrder : marks.Pairwise fun mark next => mark.span.last ≤ next.span.first)
    (positive : mark ∈ marks → mark.span.first < mark.span.last) : marks.count mark ≤ 1 := by
  by_contra more
  have twice : [mark, mark].Sublist marks :=
    List.replicate_sublist_iff.mpr (Nat.lt_of_not_le more)
  have ends := List.rel_of_pairwise_cons (inOrder.sublist twice) (.head _)
  exact Nat.not_le_of_lt (positive (twice.subset (.head _))) ends

/-! ## Names and documentation in outlines -/

namespace Outline

mutual

/-- The names in an outline, in the order of visiting. -/
def names : Outline → List Span
  | element _ _ attributes children => namesAll attributes ++ namesAll children
  | name span => [span]
  | document _ _ => []
  | ascription attributes pattern type => namesAll attributes ++ (pattern.names ++ type.names)

/-- The names in outlines. -/
def namesAll : List Outline → List Span
  | [] => []
  | outline :: outlines => outline.names ++ namesAll outlines

end

variable {span : Span} {outlines : List Outline}

/-- An outline that is not repeated counts. -/
theorem tallyAll_cons_of_single {mark : Mark} {outline : Outline}
    (single : outline.isRepeatedBy outlines = false) :
    tallyAll mark (outline :: outlines) = outline.tally mark + tallyAll mark outlines := by
  rw [tallyAll_cons, single]
  rfl

/-- A name that is repeated is the one that the next element begins with. -/
theorem leadingName?_of_isRepeatedBy (repeated : (name span).isRepeatedBy outlines) :
    leadingName? outlines = some span := by
  unfold isRepeatedBy at repeated
  split at repeated
  · next same =>
    cases same
    unfold repeats at repeated
    split at repeated
    · rw [leadingName?, eq_of_beq (Bool.and_eq_true_iff.mp repeated).1]
    · cases repeated
  · cases repeated

/-- The first name of an element that repeats a name counts. -/
theorem tally_of_repeats (form : Form) (place : Span) {first : Span} {rest : List Outline}
    (repeated : (element form place [] (name first :: rest)).repeats span) :
    first = span ∧
      (element form place [] (name first :: rest)).tally (.name span) =
        1 + tallyAll (.name span) rest := by
  rcases Bool.and_eq_true_iff.mp repeated with ⟨same, once⟩
  cases eq_of_beq same
  have single : (name span).isRepeatedBy rest = false := by
    by_contra again
    have leads := leadingName?_of_isRepeatedBy (eq_true_of_ne_false again)
    simp [leads] at once
  refine ⟨rfl, ?_⟩
  rw [tally, tallyAll_nil, tallyAll_cons_of_single single, tally, if_pos rfl, Nat.zero_add]

/-- Outlines that begin with one that repeats a name show the name. -/
theorem tallyAll_pos_of_isRepeatedBy (repeated : (name span).isRepeatedBy outlines) :
    0 < tallyAll (.name span) outlines := by
  unfold isRepeatedBy at repeated
  split at repeated
  · next next rest same =>
    cases same
    unfold repeats at repeated
    split at repeated
    · next form place first children =>
      have counted := (tally_of_repeats form place repeated).2
      rw [tallyAll_cons_of_single rfl, counted]
      omega
    · cases repeated
  · cases repeated

mutual

/-- The names that an outline shows are those in it. -/
theorem tally_pos_iff_mem_names :
    (outline : Outline) → (0 < outline.tally (.name span) ↔ span ∈ outline.names)
  | element form place attributes children => by
      rw [tally, names, List.mem_append, ← tallyAll_pos_iff_mem_namesAll attributes,
        ← tallyAll_pos_iff_mem_namesAll children]
      omega
  | name place => by
      rw [tally, names, List.mem_singleton]
      split
      · next same => simpa using same
      · next other => simpa using other
  | document place text => by simp [names]
  | ascription attributes pattern type => by
      rw [tally, names, List.mem_append, List.mem_append,
        ← tallyAll_pos_iff_mem_namesAll attributes, ← tally_pos_iff_mem_names pattern,
        ← tally_pos_iff_mem_names type]
      omega

theorem tallyAll_pos_iff_mem_namesAll :
    (outlines : List Outline) → (0 < tallyAll (.name span) outlines ↔ span ∈ namesAll outlines)
  | [] => by simp [namesAll]
  | outline :: outlines => by
      rw [tallyAll_cons, namesAll, List.mem_append, ← tally_pos_iff_mem_names outline,
        ← tallyAll_pos_iff_mem_namesAll outlines]
      split
      · next repeated =>
        cases outline with
        | name place =>
            constructor
            · intro shown
              exact .inr (by omega)
            · rintro (here | later)
              · have shownHere := (tally_pos_iff_mem_names (name place)).mp here
                have same : span = place := List.mem_singleton.mp shownHere
                have shown := tallyAll_pos_of_isRepeatedBy repeated
                rw [← same] at shown
                omega
              · omega
        | _ => cases repeated
      · omega

end

mutual

/-- Documentation counts as often as it stands in an outline. -/
theorem count_documents :
    (outline : Outline) → outline.documents.count span = outline.tally (.document span)
  | element form place attributes children => by
      rw [documents, tally, List.count_append, count_documentsAll attributes,
        count_documentsAll children]
  | name place => rfl
  | document place text => by
      rw [documents, tally, List.count_singleton]
      by_cases same : place = span
      · simp [same]
      · simp [same, Ne.symm same]
  | ascription attributes pattern type => by
      rw [documents, tally, List.count_append, List.count_append, count_documentsAll attributes,
        count_documents pattern, count_documents type]

theorem count_documentsAll :
    (outlines : List Outline) →
      (documentsAll outlines).count span = tallyAll (.document span) outlines
  | [] => rfl
  | outline :: outlines => by
      rw [documentsAll, List.count_append, count_documents outline, count_documentsAll outlines]
      cases outline with
      | name place =>
          have none : (name place).tally (.document span) = 0 := rfl
          rw [tallyAll_cons, none, ite_self]
      | _ => rw [tallyAll_cons_of_single rfl]

end

/-- What the marks of outlines say about the lexemes of a text. -/
structure Marked (lexemes : List Lexeme) (outlines : List Outline) : Prop where
  /-- A name is a word. -/
  words : ∀ span ∈ namesAll outlines, ∃ text, .leaf ⟨.word, text, span⟩ ∈ lexemes
  /-- No name counts twice. -/
  once : ∀ span, tallyAll (.name span) outlines ≤ 1
  /-- Documentation begins with a lexeme. -/
  documents : ∀ span ∈ documentsAll outlines, ∃ lexeme ∈ lexemes, lexeme.span.first = span.first
  /-- A name stands outside documentation. -/
  apart : ∀ span ∈ namesAll outlines, ∀ document ∈ documentsAll outlines,
    TokenPass.Apart span document
  /-- Documentation is not empty. -/
  filled : ∀ document ∈ documentsAll outlines, document.first < document.last
  /-- Stretches of documentation have no character in common. -/
  separate : (documentsAll outlines).Pairwise TokenPass.Apart

/-- What trees of lexemes in order hold is marked by these lexemes. -/
theorem marked_of_held {trees : List TokenTree}
    (ordered : (TokenTree.flatten trees).Pairwise Lexeme.Precedes)
    (reaches : (TokenTree.flatten trees).Pairwise
      fun first next => first.span.first < next.span.last)
    (positive : ∀ lexeme ∈ TokenTree.flatten trees, lexeme.span.first < lexeme.span.last)
    (held : Grammar.Held trees [outlines]) : Marked (TokenTree.flatten trees) outlines := by
  rcases held.marks with ⟨marks, bears, counted⟩
  simp only [Grammar.tallies_cons, Grammar.tallies_nil, Nat.add_zero] at counted
  have inOrder := bears.pairwise ordered
  have ofName {span : Span} (member : span ∈ namesAll outlines) : .name span ∈ marks := by
    have shown := (tallyAll_pos_iff_mem_namesAll outlines).mpr member
    exact List.count_pos_iff.mp (Nat.lt_of_lt_of_le shown (counted _))
  have ofDocument {span : Span} (member : span ∈ documentsAll outlines) :
      .document span ∈ marks := by
    have shown := List.count_pos_iff.mpr member
    rw [count_documentsAll] at shown
    exact List.count_pos_iff.mp (Nat.lt_of_lt_of_le shown (counted _))
  have apart {mark other : Mark} (member : mark ∈ marks) (otherMember : other ∈ marks)
      (differ : mark ≠ other) : TokenPass.Apart mark.span other.span := by
    let Apart (mark other : Mark) : Prop := TokenPass.Apart mark.span other.span
    have symmetric : Std.Symm Apart := ⟨fun _ _ => Or.symm⟩
    have all : marks.Pairwise Apart := inOrder.imp .inl
    exact all.forall member otherMember differ
  constructor
  case words => exact fun span member => bears.exists_word (ofName member)
  case once =>
    intro span
    refine Nat.le_trans (counted _) (Mark.count_le_one inOrder fun member => ?_)
    rcases bears.exists_word member with ⟨text, word⟩
    exact positive _ word
  case documents =>
    intro span member
    rcases bears.exists_first (ofDocument member) with ⟨lexeme, inText, -, same⟩
    exact ⟨lexeme, inText, same⟩
  case apart =>
    exact fun span member document documentMember =>
      apart (ofName member) (ofDocument documentMember) nofun
  case filled => exact fun document member => bears.filled reaches (ofDocument member)
  case separate =>
    have single : (documentsAll outlines).Nodup := by
      apply List.nodup_iff_count_le_one.mpr
      intro span
      rw [count_documentsAll]
      exact Nat.le_trans (counted _) (Mark.count_le_one inOrder (bears.filled reaches))
    exact single.pairwise_of_forall_ne fun document member other otherMember differ =>
      apart (ofDocument member) (ofDocument otherMember) fun same => differ (Mark.document.inj same)

theorem marked_of_outline {text : List Char} {trees : List TokenTree}
    (found : TokenTree.ofText text = .ok trees) (done : Grammar.outline trees = .ok outlines) :
    Marked (TokenTree.flatten trees) outlines := by
  have flat := TokenTree.flatten_of_ofText found
  apply marked_of_held
  · rw [flat]
    exact pairwise_precedes text
  · rw [flat]
    exact pairwise_reaches text
  · rw [flat]
    exact fun lexeme member => positive_of_mem_lexemes member
  · exact Grammar.held_of_outline done

end Outline

end ProgramGraph
