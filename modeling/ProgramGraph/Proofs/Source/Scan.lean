import Mathlib.Data.List.Pairwise
import ProgramGraph.Proofs.Source.Lengths

/-!
# Pieces of source text

The scan cuts a text into pieces, one behind the other: chunks at their places.  The lexemes of
a text are those of its pieces.  A lexeme of a piece that is no documentation comment shows what
stands in the text where it lies.  The lexemes that stand for a documentation comment lie within
the comment as well, but show something else.
-/

namespace ProgramGraph.Source

variable {text chars : List Char} {chunk : Chunk} {skip position length : Nat}

/-! ## Chunks -/

namespace Chunk

/-- What is known of a chunk at the front of a text. -/
def Fits (text : List Char) : Chunk → Prop
  | blank _ => True
  | comment _ _ length => text.head? = some '/' ∧ 0 < length
  | opening bracket => 1 ≤ text.length ∧ bracket.opening.toList = text.take 1
  | closing bracket => 1 ≤ text.length ∧ bracket.closing.toList = text.take 1
  | leaf _ length => 0 < length ∧ length ≤ text.length

theorem takes_blockLength (depth : Nat) (skip : Bool) (count : Nat) (text : List Char) :
    Takes count text (blockLength depth skip count text) := by
  fun_induction blockLength depth skip count text
  case case2 => exact .pass (.stop _ _)
  all_goals first | exact .none _ _ | exact .pass ‹_›

theorem fits_of_commentOf {inner : Bool} {words : List Char} (slash : text.head? = some '/')
    (positive : 0 < length) (found : commentOf inner words length = some chunk) :
    chunk.Fits text := by
  rw [commentOf] at found
  split at found
  · cases found
    exact ⟨slash, positive⟩
  · cases found

theorem fits_of_blockComment {inner : Bool} (slash : text.head? = some '/')
    (found : blockComment inner text = some chunk) : chunk.Fits text := by
  rcases Option.bind_eq_some_iff.mp found with ⟨length, counted, found⟩
  refine fits_of_commentOf slash ?_ found
  cases text with
  | nil => cases slash
  | cons c text =>
      rw [blockLength] at counted
      simp only [Bool.false_eq_true, if_false] at counted
      split at counted
      · exact (takes_blockLength _ _ 1 text length counted).1
      · split at counted
        · exact (takes_blockLength _ _ 1 text length counted).1
        · exact (takes_blockLength _ _ 1 text length counted).1

theorem fits_of_comment? (found : comment? text = some chunk) : chunk.Fits text := by
  unfold comment? at found
  split at found
  case h_2 | h_3 => exact fits_of_commentOf rfl (by omega) found
  case h_7 | h_8 => exact fits_of_blockComment rfl found
  case h_1 | h_4 | h_5 =>
    cases found
    trivial
  case h_6 | h_9 =>
    rcases Option.map_eq_some_iff.mp found with ⟨length, -, rfl⟩
    trivial
  case h_10 => cases found

theorem fits_of_mark? (found : mark? text = some chunk) : chunk.Fits text := by
  unfold mark? at found
  split at found
  · rcases Option.bind_eq_some_iff.mp found with ⟨length, -, found⟩
    rcases Option.ite_none_left_eq_some.mp found with ⟨-, same⟩
    cases same
    exact ⟨Nat.one_pos, Nat.le_add_left 1 _⟩
  · split at found
    · next marked =>
      cases found
      cases text with
      | nil => cases marked
      | cons c text => exact ⟨Nat.one_pos, Nat.le_add_left 1 _⟩
    · cases found

theorem fits_of_opening {c : Char} {bracket : Bracket}
    (opens : Bracket.ofOpening? c = some bracket) : (opening bracket).Fits (c :: text) := by
  unfold Bracket.ofOpening? at opens
  split at opens <;> cases opens <;> exact ⟨Nat.le_add_left 1 _, rfl⟩

theorem fits_of_closing {c : Char} {bracket : Bracket}
    (closes : Bracket.ofClosing? c = some bracket) : (closing bracket).Fits (c :: text) := by
  unfold Bracket.ofClosing? at closes
  split at closes <;> cases closes <;> exact ⟨Nat.le_add_left 1 _, rfl⟩

theorem fits_of_next? (found : next? text = some chunk) : chunk.Fits text := by
  cases text with
  | nil => cases found
  | cons c rest =>
      rw [next?] at found
      split at found
      · cases found
        trivial
      split at found
      · next comment =>
        cases found
        exact fits_of_comment? comment
      split at found
      · next broken =>
        cases found
        exact ⟨by decide, (List.isPrefixOf_iff_prefix.mp broken).length_le⟩
      split at found
      · next opens =>
        cases found
        exact fits_of_opening opens
      split at found
      · next closes =>
        cases found
        exact fits_of_closing closes
      split at found
      · next literal =>
        cases found
        exact cuts_literalLength _ _ literal
      split at found
      · next mark =>
        cases found
        exact fits_of_mark? mark
      split at found
      · cases found
      · rcases Option.map_eq_some_iff.mp found with ⟨length, word, rfl⟩
        exact cuts_wordLength _ _ word

end Chunk

/-! ## Pieces -/

/-- A chunk at its place in a text. -/
structure Piece where
  position : Nat
  /-- The text from the chunk on. -/
  text : List Char
  chunk : Chunk

namespace Piece

/-- The position after a piece. -/
def last (piece : Piece) : Nat :=
  piece.position + piece.chunk.length

/-- The lexemes that a piece stands for. -/
def lexemes (piece : Piece) : List Lexeme :=
  piece.chunk.lexemes piece.text piece.position

/-- Whether a piece is a documentation comment. -/
def isComment (piece : Piece) : Bool :=
  match piece.chunk with
  | .comment .. => true
  | _ => false

/-- A piece stands where it says in a text. -/
structure Of (chars : List Char) (piece : Piece) : Prop where
  text : piece.text = chars.drop piece.position
  fits : piece.chunk.Fits piece.text

end Piece

/-- The pieces of a text whose first character stands at `position`, of which `skip` characters
belong to a piece before. -/
def piecesFrom (skip position : Nat) : List Char → List Piece
  | [] => []
  | c :: text =>
      match skip with
      | skip + 1 => piecesFrom skip (position + 1) text
      | 0 =>
          match Chunk.next? (c :: text) with
          | none => []
          | some chunk =>
              ⟨position, c :: text, chunk⟩ :: piecesFrom (chunk.length - 1) (position + 1) text

/-- The pieces of a text, up to the place where the scan ends.  One byte order mark is passed
over. -/
def pieces : List Char → List Piece
  | [] => []
  | c :: rest => if c == byteOrderMark then piecesFrom 0 1 rest else piecesFrom 0 0 (c :: rest)

/-- The lexemes are those of the pieces. -/
theorem scanFrom_fst (done : List Lexeme) (skip position : Nat) (text : List Char) :
    (scanFrom done skip position text).1 =
      done.reverse ++ (piecesFrom skip position text).flatMap Piece.lexemes := by
  induction text generalizing done skip position with
  | nil => simp [scanFrom, piecesFrom]
  | cons c text ih =>
      cases skip with
      | succ skip => exact ih done skip (position + 1)
      | zero =>
          rw [scanFrom, piecesFrom]
          cases found : Chunk.next? (c :: text) with
          | none => simp
          | some chunk =>
              dsimp only
              rw [ih, List.reverse_append, List.reverse_reverse, List.append_assoc]
              rfl

theorem scan_fst (text : List Char) : (scan text).1 = (pieces text).flatMap Piece.lexemes := by
  cases text with
  | nil => rfl
  | cons c rest =>
      rw [scan, pieces]
      split
      · exact scanFrom_fst [] 0 1 rest
      · exact scanFrom_fst [] 0 0 (c :: rest)

/-- No piece begins among the characters that are skipped. -/
theorem le_position_of_mem {piece : Piece} (member : piece ∈ piecesFrom skip position text) :
    position + skip ≤ piece.position := by
  induction text generalizing skip position with
  | nil => cases member
  | cons c text ih =>
      cases skip with
      | succ skip =>
          have later : piece ∈ piecesFrom skip (position + 1) text := member
          have behind := ih later
          omega
      | zero =>
          rw [piecesFrom] at member
          split at member
          · cases member
          · rcases List.mem_cons.mp member with rfl | later
            · exact Nat.le_refl position
            · have behind := ih later
              omega

theorem of_mem_piecesFrom {piece : Piece} (here : text = chars.drop position)
    (member : piece ∈ piecesFrom skip position text) : piece.Of chars := by
  induction text generalizing skip position with
  | nil => cases member
  | cons c text ih =>
      have next : text = chars.drop (position + 1) := by
        rw [← List.drop_drop, ← here, List.drop_one, List.tail_cons]
      cases skip with
      | succ skip =>
          have later : piece ∈ piecesFrom skip (position + 1) text := member
          exact ih next later
      | zero =>
          rw [piecesFrom] at member
          split at member
          · cases member
          · next found =>
            rcases List.mem_cons.mp member with rfl | later
            · exact ⟨here, Chunk.fits_of_next? found⟩
            · exact ih next later

/-- The pieces of a text stand in it. -/
theorem of_mem_pieces {piece : Piece} (member : piece ∈ pieces text) : piece.Of text := by
  cases text with
  | nil => cases member
  | cons c rest =>
      rw [pieces] at member
      split at member
      · have here : rest = (c :: rest).drop 1 := rfl
        exact of_mem_piecesFrom here member
      · have here : c :: rest = (c :: rest).drop 0 := rfl
        exact of_mem_piecesFrom here member

theorem pairwise_piecesFrom (skip position : Nat) (text : List Char) :
    (piecesFrom skip position text).Pairwise fun piece next => piece.last ≤ next.position := by
  induction text generalizing skip position with
  | nil => exact .nil
  | cons c text ih =>
      cases skip with
      | succ skip => exact ih skip (position + 1)
      | zero =>
          rw [piecesFrom]
          split
          · exact .nil
          · next chunk found =>
            refine .cons ?_ (ih _ _)
            intro next later
            have behind := le_position_of_mem later
            change position + chunk.length ≤ next.position
            omega

/-- Each piece ends before the next one begins. -/
theorem pairwise_pieces (text : List Char) :
    (pieces text).Pairwise fun piece next => piece.last ≤ next.position := by
  cases text with
  | nil => exact .nil
  | cons c rest =>
      rw [pieces]
      split
      · exact pairwise_piecesFrom 0 1 rest
      · exact pairwise_piecesFrom 0 0 (c :: rest)

/-! ## What lexemes show -/

/-- A lexeme covers a stretch of a text that is not empty, and its own text is what stands
there. -/
structure Lexeme.Shows (chars : List Char) (lexeme : Lexeme) : Prop where
  positive : lexeme.span.first < lexeme.span.last
  inside : lexeme.span.last ≤ chars.length
  text : lexeme.text.toList = (chars.take lexeme.span.last).drop lexeme.span.first

variable {lexeme : Lexeme} {piece : Piece} {inner : Bool} {words : List Char} {span : Span}

/-- The lexemes of a documentation comment cover the comment or an end of it. -/
theorem span_of_mem_commentLexemes (member : lexeme ∈ Chunk.commentLexemes inner words span) :
    lexeme.span ∈ [span, span.head, span.tail] := by
  have spans : (Chunk.commentLexemes inner words span).map Lexeme.span ⊆
      [span, span.head, span.tail] := by
    cases inner <;> simp [Chunk.commentLexemes, Lexeme.span]
  exact spans (List.mem_map_of_mem member)

/-- A documentation comment has a lexeme that covers all of it. -/
theorem exists_lexeme_of_comment (comment : piece.isComment) :
    ∃ lexeme ∈ piece.lexemes, lexeme.span = ⟨piece.position, piece.last⟩ := by
  rcases piece with ⟨position, text, chunk⟩
  cases chunk with
  | comment inner words length => exact ⟨_, .head _, rfl⟩
  | _ => cases comment

namespace Piece.Of

/-- The lexemes of a piece lie within it. -/
theorem within (stands : piece.Of chars) (member : lexeme ∈ piece.lexemes) :
    piece.position ≤ lexeme.span.first ∧ lexeme.span.first < lexeme.span.last ∧
      lexeme.span.last ≤ piece.last := by
  rcases piece with ⟨position, text, chunk⟩
  have fits := stands.fits
  cases chunk with
  | blank length => cases member
  | comment inner words length =>
      have positive : 0 < length := fits.2
      have place := span_of_mem_commentLexemes member
      simp only [List.mem_cons, List.not_mem_nil, or_false] at place
      rcases place with same | same | same
      all_goals
        rw [same]
        simp only [Span.head, Span.tail, last, Chunk.length]
        omega
  | opening bracket =>
      cases List.mem_singleton.mp member
      exact ⟨Nat.le_refl position, Nat.lt_succ_self position, Nat.le_refl _⟩
  | closing bracket =>
      cases List.mem_singleton.mp member
      exact ⟨Nat.le_refl position, Nat.lt_succ_self position, Nat.le_refl _⟩
  | leaf form length =>
      have positive : 0 < length := fits.1
      cases List.mem_singleton.mp member
      exact ⟨Nat.le_refl position, Nat.lt_add_of_pos_right positive, Nat.le_refl _⟩

/-- A lexeme that takes characters from the front of a piece shows them. -/
theorem shows_of_take (stands : piece.Of chars) (positive : 0 < length)
    (inside : length ≤ piece.text.length)
    (span : lexeme.span = ⟨piece.position, piece.position + length⟩)
    (text : lexeme.text.toList = piece.text.take length) : lexeme.Shows chars := by
  have fits := inside
  rw [stands.text, List.length_drop] at fits
  constructor
  · rw [span]
    exact Nat.lt_add_of_pos_right positive
  · rw [span]
    show piece.position + length ≤ chars.length
    omega
  · rw [text, span, stands.text, List.drop_take, Nat.add_sub_cancel_left]

/-- Outside documentation comments a lexeme shows what stands in the text. -/
theorem shows (stands : piece.Of chars) (plain : piece.isComment = false)
    (member : lexeme ∈ piece.lexemes) : lexeme.Shows chars := by
  rcases piece with ⟨position, text, chunk⟩
  have fits := stands.fits
  cases chunk with
  | blank length => cases member
  | comment inner words length => cases plain
  | opening bracket =>
      cases List.mem_singleton.mp member
      exact stands.shows_of_take Nat.one_pos fits.1 rfl fits.2
  | closing bracket =>
      cases List.mem_singleton.mp member
      exact stands.shows_of_take Nat.one_pos fits.1 rfl fits.2
  | leaf form length =>
      cases List.mem_singleton.mp member
      exact stands.shows_of_take fits.1 fits.2 rfl String.toList_ofList

end Piece.Of

/-! ## Order -/

/-- Two lexemes stand for the same documentation comment of a text. -/
def InOneComment (chars : List Char) (first next : Lexeme) : Prop :=
  ∃ piece ∈ pieces chars, piece.isComment ∧ first ∈ piece.lexemes ∧ next ∈ piece.lexemes

/-- A piece that is no documentation comment has at most one lexeme. -/
theorem pairwise_lexemes_of_plain (plain : piece.isComment = false)
    (R : Lexeme → Lexeme → Prop) : piece.lexemes.Pairwise R := by
  rcases piece with ⟨position, text, chunk⟩
  cases chunk with
  | comment inner words length => cases plain
  | blank length => exact .nil
  | opening bracket => exact List.pairwise_singleton R _
  | closing bracket => exact List.pairwise_singleton R _
  | leaf form length => exact List.pairwise_singleton R _

/-- A documentation comment stands for the lexemes of an attribute. -/
theorem exists_commentLexemes (comment : piece.isComment) :
    ∃ inner words span, piece.lexemes = Chunk.commentLexemes inner words span := by
  rcases piece with ⟨position, text, chunk⟩
  cases chunk with
  | comment inner words length => exact ⟨inner, words, _, rfl⟩
  | _ => cases comment

/-- A relation holds between the lexemes of a text in their order, if it holds between lexemes
that lie apart and within each documentation comment. -/
theorem pairwise_lexemes_of {R : Lexeme → Lexeme → Prop} (chars : List Char)
    (apart : ∀ first next : Lexeme, first.span.first < first.span.last →
      first.span.last ≤ next.span.first → next.span.first < next.span.last → R first next)
    (together : ∀ piece ∈ pieces chars, piece.isComment → piece.lexemes.Pairwise R) :
    ((pieces chars).flatMap Piece.lexemes).Pairwise R := by
  apply List.pairwise_flatMap.mpr
  constructor
  · intro piece member
    cases comment : piece.isComment with
    | true => exact together piece member comment
    | false => exact pairwise_lexemes_of_plain comment R
  · apply (pairwise_pieces chars).imp_of_mem
    intro piece next member nextMember ordered first firstIn second secondIn
    have here := (of_mem_pieces member).within firstIn
    have there := (of_mem_pieces nextMember).within secondIn
    exact apart first second here.2.1 (by omega) there.2.1

/-- Lexemes follow each other, those of one documentation comment apart. -/
theorem pairwise_lexemes (chars : List Char) :
    ((pieces chars).flatMap Piece.lexemes).Pairwise fun first next =>
      first.span.last ≤ next.span.first ∨ InOneComment chars first next := by
  apply pairwise_lexemes_of chars
  · exact fun first next _ before _ => .inl before
  · intro piece member comment
    apply List.pairwise_of_forall_mem_list
    exact fun first firstIn next nextIn => .inr ⟨piece, member, comment, firstIn, nextIn⟩

/-- Where a lexeme stands there is no other piece of the text. -/
theorem piece_eq_of_span_eq {other : Piece} {twin : Lexeme} (member : piece ∈ pieces chars)
    (otherMember : other ∈ pieces chars) (lexemeIn : lexeme ∈ piece.lexemes)
    (twinIn : twin ∈ other.lexemes) (same : lexeme.span = twin.span) : piece = other := by
  let Apart (piece other : Piece) : Prop :=
    piece.last ≤ other.position ∨ other.last ≤ piece.position
  have symmetric : Std.Symm Apart := ⟨fun _ _ => Or.symm⟩
  have apart : (pieces chars).Pairwise Apart := (pairwise_pieces chars).imp .inl
  have bounds := (of_mem_pieces member).within lexemeIn
  have otherBounds := (of_mem_pieces otherMember).within twinIn
  rw [same] at bounds
  by_contra differ
  rcases apart.forall member otherMember differ with before | behind
  · omega
  · omega

end ProgramGraph.Source
