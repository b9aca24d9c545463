import ProgramGraph.Grammar.Reader
import ProgramGraph.Proofs.Grammar.Extents
import ProgramGraph.Proofs.Grammar.Order

/-!
# Where trees stand

The trees of a text stand one behind the other, and what a group holds stands in it.  The trees
that a documentation comment reads as are the exception: all but their brackets cover the whole
comment, so of two such trees it is only known that the second neither begins nor ends before the
first.
-/

namespace ProgramGraph.Source

/-! ## Lexemes -/

namespace Lexeme

/-- Whether a lexeme is an opening bracket. -/
def isOpening : Lexeme → Bool
  | opening _ _ => true
  | _ => false

/-- Whether a lexeme is a closing bracket. -/
def isClosing : Lexeme → Bool
  | closing _ _ => true
  | _ => false

/-- Whether a lexeme is a number. -/
def isNumber : Lexeme → Bool
  | leaf unit => Grammar.isNumber unit.text
  | _ => false

/-- How one lexeme of a text lies before another. -/
structure LiesBefore (lexeme next : Lexeme) : Prop where
  first : lexeme.span.first ≤ next.span.first
  last : next.isOpening = false → lexeme.span.last ≤ next.span.last
  /-- They have nothing in common behind a closing bracket and before a number. -/
  apart : lexeme.isClosing ∨ next.isNumber → lexeme.span.last ≤ next.span.first

/-- A lexeme covers something, and a number covers as much as its text is long. -/
structure IsMeasured (lexeme : Lexeme) : Prop where
  positive : lexeme.span.first < lexeme.span.last
  number : lexeme.isNumber → lexeme.span.first + lexeme.text.length ≤ lexeme.span.last

end Lexeme

/-- No lexeme of a documentation comment is a number. -/
theorem not_isNumber_of_mem_commentLexemes {inner : Bool} {words : List Char} {span : Span}
    {lexeme : Lexeme} (member : lexeme ∈ Chunk.commentLexemes inner words span) :
    lexeme.isNumber = false := by
  have quoted : Grammar.isNumber (String.ofList (Quoted.quote words)) = false := by
    simp [Grammar.isNumber, Quoted.quote]
  have marks : Grammar.isNumber "#" = false ∧ Grammar.isNumber "!" = false ∧
      Grammar.isNumber "doc" = false ∧ Grammar.isNumber "=" = false := by
    decide
  have all : ∀ lexeme ∈ Chunk.commentLexemes inner words span, lexeme.isNumber = false := by
    cases inner <;> simp [Chunk.commentLexemes, Lexeme.isNumber, quoted, marks]
  exact all lexeme member

/-- The lexemes of a documentation comment lie before each other. -/
theorem pairwise_liesBefore_commentLexemes (inner : Bool) (words : List Char) (span : Span) :
    (Chunk.commentLexemes inner words span).Pairwise Lexeme.LiesBefore := by
  have number := fun lexeme (member : lexeme ∈ Chunk.commentLexemes inner words span) =>
    not_isNumber_of_mem_commentLexemes member
  have ordered : (Chunk.commentLexemes inner words span).Pairwise fun lexeme next =>
      lexeme.isClosing = false ∧ lexeme.span.first ≤ next.span.first ∧
        (next.isOpening = false → lexeme.span.last ≤ next.span.last) := by
    cases inner <;>
      simp [Chunk.commentLexemes, Lexeme.isOpening, Lexeme.isClosing, Lexeme.span, Span.head,
        Span.tail]
  apply ordered.imp_of_mem
  rintro lexeme next _ nextMember ⟨isOpen, first, last⟩
  refine ⟨first, last, fun apart => ?_⟩
  rw [isOpen, number next nextMember] at apart
  simp at apart

/-- The lexemes of a text lie before each other. -/
theorem pairwise_liesBefore (chars : List Char) :
    ((pieces chars).flatMap Piece.lexemes).Pairwise Lexeme.LiesBefore := by
  apply pairwise_lexemes_of chars
  · intro first next firstFilled before nextFilled
    exact ⟨by omega, fun _ => by omega, fun _ => by omega⟩
  · intro piece _ comment
    rcases exists_commentLexemes comment with ⟨inner, words, span, lexemes⟩
    rw [lexemes]
    exact pairwise_liesBefore_commentLexemes inner words span

/-- The lexemes of a text are measured. -/
theorem isMeasured_of_mem_lexemes {chars : List Char} {lexeme : Lexeme}
    (member : lexeme ∈ (pieces chars).flatMap Piece.lexemes) : lexeme.IsMeasured := by
  refine ⟨positive_of_mem_lexemes member, fun number => ?_⟩
  rcases List.mem_flatMap.mp member with ⟨piece, inPieces, inPiece⟩
  have stands := of_mem_pieces inPieces
  cases comment : piece.isComment with
  | false =>
      have shows := stands.shows comment inPiece
      have length := congrArg List.length shows.text
      rw [List.length_drop, List.length_take, String.length_toList] at length
      have positive := shows.positive
      omega
  | true =>
      rcases exists_commentLexemes comment with ⟨inner, words, span, lexemes⟩
      rw [lexemes] at inPiece
      rw [not_isNumber_of_mem_commentLexemes inPiece] at number
      cases number

/-! ## Trees -/

namespace TokenTree

/-- Whether a tree is a group. -/
def isGroup : TokenTree → Bool
  | group .. => true
  | leaf _ => false

/-- Whether a tree is a number. -/
def isNumber : TokenTree → Bool
  | leaf unit => Grammar.isNumber unit.text
  | group .. => false

/-- How one tree of a level lies before another. -/
structure LiesBefore (tree next : TokenTree) : Prop where
  first : tree.first ≤ next.first
  last : tree.last ≤ next.last
  /-- They have nothing in common behind a group and before a number. -/
  apart : tree.isGroup ∨ next.isNumber → tree.last ≤ next.first

mutual

/-- A tree covers something, and what a group holds stands in it, in order. -/
def InPlace : TokenTree → Prop
  | leaf unit => unit.span.first < unit.span.last ∧
      (Grammar.isNumber unit.text → unit.span.first + unit.text.length ≤ unit.span.last)
  | group _ opening closing trees => opening.first < closing.last ∧
      (∀ tree ∈ trees, opening.first ≤ tree.first ∧ tree.last ≤ closing.last) ∧ AllInPlace trees

/-- Trees stand in place and in order. -/
def AllInPlace : List TokenTree → Prop
  | [] => True
  | tree :: trees => tree.InPlace ∧ (∀ next ∈ trees, tree.LiesBefore next) ∧ AllInPlace trees

end

variable {tree : TokenTree} {trees run front back : List TokenTree}

theorem InPlace.positive (inPlace : tree.InPlace) : tree.first < tree.last := by
  cases tree with
  | leaf unit => exact inPlace.1
  | group bracket opening closing trees => exact inPlace.1

theorem allInPlace_append :
    AllInPlace (front ++ back) ↔ AllInPlace front ∧ AllInPlace back ∧
      ∀ tree ∈ front, ∀ next ∈ back, tree.LiesBefore next := by
  induction front with
  | nil => simp [AllInPlace]
  | cons tree front ih =>
      rw [List.cons_append, AllInPlace, AllInPlace, ih]
      simp only [List.mem_append, List.mem_cons]
      grind

/-! ### Trees of a text -/

/-- A tree with brackets begins with its first lexeme, and it ends with a lexeme that opens nothing
and closes something just if the tree is a group. -/
theorem exists_outer (bracketed : tree.Bracketed) :
    (∃ lexeme ∈ tree.lexemes, lexeme.span.first = tree.first ∧
      (tree.isNumber → lexeme.isNumber)) ∧
    ∃ lexeme ∈ tree.lexemes, lexeme.span.last = tree.last ∧ lexeme.isOpening = false ∧
      (tree.isGroup → lexeme.isClosing) := by
  cases tree with
  | leaf unit => exact ⟨⟨_, .head _, rfl, id⟩, _, .head _, rfl, rfl, nofun⟩
  | group bracket opening closing trees =>
      rcases Option.isSome_iff_exists.mp bracketed.1 with ⟨kind, rfl⟩
      refine ⟨⟨.opening kind opening, .head _, rfl, nofun⟩, .closing kind closing, ?_, rfl, rfl,
        fun _ => rfl⟩
      exact .tail _ (List.mem_append_right _ (.head _))

/-- Trees lie before each other if their lexemes do. -/
theorem liesBefore_of_lexemes {next : TokenTree} (bracketed : tree.Bracketed)
    (nextBracketed : next.Bracketed)
    (before : ∀ lexeme ∈ tree.lexemes, ∀ other ∈ next.lexemes, lexeme.LiesBefore other) :
    tree.LiesBefore next := by
  rcases exists_outer bracketed with ⟨⟨first, firstIn, begins, -⟩, last, lastIn, ends, -, closes⟩
  rcases exists_outer nextBracketed with
    ⟨⟨nextFirst, nextFirstIn, nextBegins, number⟩, nextLast, nextLastIn, nextEnds, notOpening, -⟩
  constructor
  · rw [← begins, ← nextBegins]
    exact (before first firstIn nextFirst nextFirstIn).first
  · rw [← ends, ← nextEnds]
    exact (before last lastIn nextLast nextLastIn).last notOpening
  · rw [← ends, ← nextBegins]
    exact fun apart => (before last lastIn nextFirst nextFirstIn).apart (apart.imp closes number)

mutual

theorem inPlace_of_lexemes : (tree : TokenTree) → tree.Bracketed →
    tree.lexemes.Pairwise Lexeme.LiesBefore → (∀ lexeme ∈ tree.lexemes, lexeme.IsMeasured) →
      tree.InPlace
  | leaf unit, _, _, measured => by
      have only := measured (.leaf unit) (.head _)
      exact ⟨only.positive, only.number⟩
  | group bracket opening closing trees, bracketed, ordered, measured => by
      rcases Option.isSome_iff_exists.mp bracketed.1 with ⟨kind, rfl⟩
      have lexemes : (group (some kind) opening closing trees).lexemes =
          .opening kind opening :: (flatten trees ++ [.closing kind closing]) := rfl
      rw [lexemes] at ordered measured
      rcases List.pairwise_cons.mp ordered with ⟨opens, later⟩
      rcases List.pairwise_append.mp later with ⟨inner, -, closes⟩
      refine ⟨?_, ?_, ?_⟩
      · have first := (opens (.closing kind closing) (by simp)).first
        have positive := (measured (.closing kind closing) (by simp)).positive
        exact Nat.lt_of_le_of_lt first positive
      · intro tree member
        rcases List.append_of_mem member with ⟨before, behind, rfl⟩
        have inFlat : ∀ lexeme ∈ tree.lexemes, lexeme ∈ flatten (before ++ tree :: behind) := by
          intro lexeme inTree
          rw [flatten_append, flatten_cons]
          exact List.mem_append_right _ (List.mem_append_left _ inTree)
        rcases exists_outer (allBracketed_append.mp bracketed.2).2.1 with
          ⟨⟨first, firstIn, begins, -⟩, last, lastIn, ends, -, -⟩
        rw [← begins, ← ends]
        exact ⟨(opens first (List.mem_append_left _ (inFlat first firstIn))).first,
          (closes last (inFlat last lastIn) _ (.head _)).last rfl⟩
      · exact allInPlace_of_lexemes trees bracketed.2 inner
          fun lexeme member => measured lexeme (by simp [member])

theorem allInPlace_of_lexemes : (trees : List TokenTree) → AllBracketed trees →
    (flatten trees).Pairwise Lexeme.LiesBefore → (∀ lexeme ∈ flatten trees, lexeme.IsMeasured) →
      AllInPlace trees
  | [], _, _, _ => trivial
  | tree :: trees, bracketed, ordered, measured => by
      rw [flatten_cons] at ordered measured
      rcases List.pairwise_append.mp ordered with ⟨inTree, later, between⟩
      refine ⟨?_, ?_, ?_⟩
      · exact inPlace_of_lexemes tree bracketed.1 inTree
          fun lexeme member => measured lexeme (List.mem_append_left _ member)
      · intro next member
        rcases List.append_of_mem member with ⟨before, behind, rfl⟩
        apply liesBefore_of_lexemes bracketed.1 (allBracketed_append.mp bracketed.2).2.1
        intro lexeme inFirst other inNext
        apply between lexeme inFirst
        rw [flatten_append, flatten_cons]
        exact List.mem_append_right _ (List.mem_append_left _ inNext)
      · exact allInPlace_of_lexemes trees bracketed.2 later
          fun lexeme member => measured lexeme (List.mem_append_right _ member)

end

/-- The trees of a text stand in place. -/
theorem allInPlace_of_ofText {text : List Char} (found : ofText text = .ok trees) :
    AllInPlace trees := by
  have flat := flatten_of_ofText found
  apply allInPlace_of_lexemes trees (allBracketed_of_ofText found)
  · rw [flat]
    exact pairwise_liesBefore text
  · rw [flat]
    exact fun lexeme member => isMeasured_of_mem_lexemes member

/-! ### Runs in place -/

/-- The position where the last tree of a run begins. -/
def turn (run : List TokenTree) : Nat :=
  (run.getLast?.map first).getD 0

theorem turn_append (front : List TokenTree) (some : back ≠ []) :
    turn (front ++ back) = turn back := by
  rw [turn, turn, List.getLast?_append_of_ne_nil front some]

theorem extent_append_first (some : front ≠ []) (back : List TokenTree) :
    (extent (front ++ back)).first = (extent front).first := by
  rw [extent, extent, List.head?_append_of_ne_nil front some]

theorem extent_append_last (front : List TokenTree) (some : back ≠ []) :
    (extent (front ++ back)).last = (extent back).last := by
  rw [extent, extent, List.getLast?_append_of_ne_nil front some]

/-- A run has a first tree, with which it begins, and a last one, with which it ends. -/
theorem exists_extent (some : run ≠ []) :
    (∃ tree ∈ run, (extent run).first = tree.first) ∧
      ∃ tree ∈ run, (extent run).last = tree.last ∧ turn run = tree.first := by
  constructor
  · cases run with
    | nil => exact absurd rfl some
    | cons tree run => exact ⟨tree, .head _, rfl⟩
  · refine ⟨run.getLast some, List.getLast_mem some, ?_⟩
    rw [extent, turn, List.getLast?_eq_some_getLast some]
    exact ⟨rfl, rfl⟩

/-- The second of two runs neither begins nor ends before the first. -/
theorem extent_le (inPlace : AllInPlace (front ++ back)) (frontSome : front ≠ [])
    (backSome : back ≠ []) :
    (extent front).first ≤ (extent back).first ∧ (extent front).last ≤ (extent back).last ∧
      turn front ≤ (extent back).first := by
  rcases exists_extent frontSome with ⟨⟨first, firstIn, begins⟩, last, lastIn, ends, turns⟩
  rcases exists_extent backSome with ⟨⟨next, nextIn, nextBegins⟩, end', endIn, nextEnds, -⟩
  have between := (allInPlace_append.mp inPlace).2.2
  rw [begins, ends, turns, nextBegins, nextEnds]
  exact ⟨(between first firstIn next nextIn).first, (between last lastIn end' endIn).last,
    (between last lastIn next nextIn).first⟩

/-- A run in place begins before its last tree does, and ends behind that. -/
theorem turn_between (inPlace : AllInPlace run) (some : run ≠ []) :
    (extent run).first ≤ turn run ∧ turn run < (extent run).last := by
  rcases List.eq_nil_or_concat' run with rfl | ⟨front, tree, rfl⟩
  · exact absurd rfl some
  rcases allInPlace_append.mp inPlace with ⟨-, ⟨only, -⟩, before⟩
  have turns : turn (front ++ [tree]) = tree.first := turn_append front (by simp)
  have ends : (extent (front ++ [tree])).last = tree.last :=
    extent_append_last front (by simp)
  rw [turns, ends]
  refine ⟨?_, only.positive⟩
  cases front with
  | nil => exact Nat.le_refl _
  | cons first front => exact (before first (.head _) tree (.head _)).first

end TokenTree

end ProgramGraph.Source
