import ProgramGraph.Proofs.Source.Scan
import ProgramGraph.Proofs.Source.TokenTree

/-!
# Texts behind a mark

A text behind a byte order mark is cut into the same pieces as without it, each of them one
place further on, and its brackets match as before.  A second byte order mark fits nowhere.
-/

namespace ProgramGraph.Source

variable {text chars rest : List Char} {chunk : Chunk} {skip position distance : Nat}

/-! ## Pieces and their texts -/

namespace Chunk

theorem lineLength_le (count : Nat) (text : List Char) :
    (lineLength count text).1 + (lineLength count text).2 ≤ count + text.length := by
  fun_induction lineLength count text with
  | case1 => simp
  | case2 => simp
  | case3 count c text notEnd ending =>
      cases text with
      | nil => simp at ending
      | cons next text =>
          simp only [List.length_cons]
          omega
  | case4 count c text notEnd notEnding ih =>
      rw [List.length_cons]
      omega

theorem length_le_of_commentOf {inner : Bool} {words : List Char} {length : Nat}
    (inside : length ≤ text.length) (found : commentOf inner words length = some chunk) :
    chunk.length ≤ text.length := by
  rw [commentOf] at found
  split at found
  · cases found
    exact inside
  · cases found

theorem blockLength_le {length : Nat} (counted : blockLength 0 false 0 text = some length) :
    length ≤ text.length := by
  have bounds := takes_blockLength 0 false 0 text length counted
  omega

theorem length_le_of_comment? (found : comment? text = some chunk) :
    chunk.length ≤ text.length := by
  have line (words : List Char) := lineLength_le 0 words
  have plain (words : List Char) : (comment?.plainLine words).length ≤ words.length := by
    have bounds := line words
    simp only [comment?.plainLine, length]
    omega
  unfold comment? at found
  split at found
  case h_1 | h_4 =>
    cases found
    exact plain _
  case h_2 rest _ | h_3 rest =>
    refine length_le_of_commentOf ?_ found
    have bounds := line rest
    simp only [List.drop_succ_cons, List.drop_zero, List.length_cons]
    omega
  case h_5 =>
    cases found
    simp [length]
  case h_6 | h_9 =>
    rcases Option.map_eq_some_iff.mp found with ⟨length, counted, rfl⟩
    exact blockLength_le counted
  case h_7 | h_8 =>
    rcases Option.bind_eq_some_iff.mp found with ⟨length, counted, found⟩
    exact length_le_of_commentOf (blockLength_le counted) found
  case h_10 => cases found

theorem length_of_mark? (found : mark? text = some chunk) : chunk.length = 1 := by
  unfold mark? at found
  split at found
  · rcases Option.bind_eq_some_iff.mp found with ⟨length, -, found⟩
    rcases Option.ite_none_left_eq_some.mp found with ⟨-, same⟩
    cases same
    rfl
  · split at found
    · cases found
      rfl
    · cases found

/-- A chunk is a part of the text. -/
theorem length_le_of_next? (found : next? text = some chunk) : chunk.length ≤ text.length := by
  cases text with
  | nil => cases found
  | cons c rest =>
      have filled : 1 ≤ (c :: rest).length := Nat.le_add_left 1 _
      rw [next?] at found
      split at found
      · cases found
        exact Nat.succ_le_succ (List.takeWhile_sublist _).length_le
      split at found
      · next comment =>
        cases found
        exact length_le_of_comment? comment
      split at found
      · next broken =>
        cases found
        exact (List.isPrefixOf_iff_prefix.mp broken).length_le
      split at found
      · cases found
        exact filled
      split at found
      · cases found
        exact filled
      split at found
      · next literal =>
        cases found
        exact (cuts_literalLength _ _ literal).2
      split at found
      · next mark =>
        cases found
        exact length_of_mark? mark ▸ filled
      split at found
      · cases found
      · rcases Option.map_eq_some_iff.mp found with ⟨length, word, rfl⟩
        exact (cuts_wordLength _ _ word).2

/-- A byte order mark fits nowhere. -/
theorem next?_byteOrderMark (rest : List Char) : next? (byteOrderMark :: rest) = none := by
  have blank : Unicode.isSourceBlank byteOrderMark = false := by decide +kernel
  have start : Unicode.isIdentifierStart byteOrderMark = false := by decide +kernel
  have comment : comment? (byteOrderMark :: rest) = none := rfl
  have broken : brokenLiteral.isPrefixOf (byteOrderMark :: rest) = false := rfl
  have opening : Bracket.ofOpening? byteOrderMark = none := rfl
  have closing : Bracket.ofClosing? byteOrderMark = none := rfl
  have literal : literalLength (byteOrderMark :: rest) = none := rfl
  have mark : mark? (byteOrderMark :: rest) = none := rfl
  have quoted : startsLikeQuoted (byteOrderMark :: rest) = false := rfl
  have word : wordLength (byteOrderMark :: rest) = identifierLength (byteOrderMark :: rest) := rfl
  have identifier : identifierLength (byteOrderMark :: rest) = none := by
    simp [identifierLength, start]
  simp [next?, blank, comment, broken, opening, closing, literal, mark, quoted, word, identifier]

/-- A number sign before an exclamation mark is a mark of its own. -/
theorem next?_sign (rest : List Char) :
    next? ('#' :: '!' :: rest) = some (leaf (.mark true) 1) :=
  rfl

end Chunk

theorem next?_of_mem_piecesFrom {piece : Piece} (member : piece ∈ piecesFrom skip position text) :
    Chunk.next? piece.text = some piece.chunk := by
  induction text generalizing skip position with
  | nil => cases member
  | cons c text ih =>
      cases skip with
      | succ skip => exact ih member
      | zero =>
          rw [piecesFrom] at member
          split at member
          · cases member
          · next found =>
            rcases List.mem_cons.mp member with rfl | later
            · exact found
            · exact ih later

/-- The chunk of a piece is what stands at the front of its text. -/
theorem next?_of_mem_pieces {piece : Piece} (member : piece ∈ pieces text) :
    Chunk.next? piece.text = some piece.chunk := by
  cases text with
  | nil => cases member
  | cons c rest =>
      rw [pieces] at member
      split at member
      · exact next?_of_mem_piecesFrom member
      · exact next?_of_mem_piecesFrom member

/-- A lexeme lies in the text. -/
theorem last_le_of_mem_lexemes {lexeme : Lexeme}
    (member : lexeme ∈ (pieces chars).flatMap Piece.lexemes) :
    lexeme.span.last ≤ chars.length := by
  rcases List.mem_flatMap.mp member with ⟨piece, inPieces, inPiece⟩
  have stands := of_mem_pieces inPieces
  have found := next?_of_mem_pieces inPieces
  have part := Chunk.length_le_of_next? found
  have ends := (stands.within inPiece).2.2
  have begins := (stands.within inPiece).1
  have positive := (stands.within inPiece).2.1
  rw [stands.text, List.length_drop] at part
  rw [Piece.last] at ends
  omega

/-- No lexeme begins at the front of a text that begins with a line feed or with a byte order
mark. -/
theorem first_pos_of_mem_lexemes {lexeme : Lexeme}
    (begins : text.head? = some '\n' ∨ text.head? = some byteOrderMark)
    (member : lexeme ∈ (pieces text).flatMap Piece.lexemes) : 0 < lexeme.span.first := by
  rcases List.mem_flatMap.mp member with ⟨piece, inPieces, inPiece⟩
  have within := ((of_mem_pieces inPieces).within inPiece).1
  suffices behind : 0 < piece.position from Nat.lt_of_lt_of_le behind within
  rcases begins with newLine | marked
  · rcases List.head?_eq_some_iff.mp newLine with ⟨rest, rfl⟩
    have found : Chunk.next? ('\n' :: rest) =
        some (.blank ((rest.takeWhile Unicode.isSourceBlank).length + 1)) := by
      rfl
    rw [pieces, if_neg (by decide), piecesFrom, found] at inPieces
    rcases List.mem_cons.mp inPieces with rfl | later
    · cases inPiece
    · have bound := le_position_of_mem later
      omega
  · rcases List.head?_eq_some_iff.mp marked with ⟨rest, rfl⟩
    exact Nat.lt_of_lt_of_le Nat.one_pos (le_position_of_mem inPieces)

/-! ## Moved lexemes -/

namespace Span

/-- A stretch that is moved. -/
def shift (distance : Nat) (span : Span) : Span where
  first := span.first + distance
  last := span.last + distance

theorem head_shift (distance : Nat) (span : Span) :
    (span.shift distance).head = span.head.shift distance := by
  simp only [head, shift, Span.mk.injEq, true_and]
  omega

theorem tail_shift (distance : Nat) (span : Span) :
    (span.shift distance).tail = span.tail.shift distance := by
  simp only [tail, shift, Span.mk.injEq, and_true]
  omega

end Span

namespace Lexeme

/-- A lexeme in another place. -/
def replace (place : Span → Span) : Lexeme → Lexeme
  | .leaf unit => .leaf { unit with span := place unit.span }
  | .opening bracket span => .opening bracket (place span)
  | .closing bracket span => .closing bracket (place span)

@[simp]
theorem span_replace (place : Span → Span) (lexeme : Lexeme) :
    (lexeme.replace place).span = place lexeme.span := by
  cases lexeme <;> rfl

@[simp]
theorem text_replace (place : Span → Span) (lexeme : Lexeme) :
    (lexeme.replace place).text = lexeme.text := by
  cases lexeme <;> rfl

@[simp]
theorem nodeKind_replace (place : Span → Span) (lexeme : Lexeme) :
    (lexeme.replace place).nodeKind = lexeme.nodeKind := by
  rcases lexeme with ⟨form, text, span⟩ | _ | _
  · cases form <;> rfl
  · rfl
  · rfl

end Lexeme

theorem Chunk.lexemes_shift (chunk : Chunk) (text : List Char) (position distance : Nat) :
    chunk.lexemes text (position + distance) =
      (chunk.lexemes text position).map (Lexeme.replace (Span.shift distance)) := by
  have moved (length : Nat) : Span.shift distance ⟨position, position + length⟩ =
      ⟨position + distance, position + distance + length⟩ := by
    rw [Span.shift, Nat.add_right_comm position length]
  cases chunk with
  | blank => rfl
  | comment inner words length =>
      rw [lexemes, lexemes, ← moved]
      cases inner <;>
        simp [commentLexemes, Lexeme.replace, Span.head_shift, Span.tail_shift]
  | opening bracket =>
      rw [lexemes, lexemes, ← moved]
      rfl
  | closing bracket =>
      rw [lexemes, lexemes, ← moved]
      rfl
  | leaf form length =>
      rw [lexemes, lexemes, ← moved]
      rfl

/-- A text that begins further on has the same lexemes further on. -/
theorem lexemes_piecesFrom_shift (skip position distance : Nat) (text : List Char) :
    (piecesFrom skip (position + distance) text).flatMap Piece.lexemes =
      ((piecesFrom skip position text).flatMap Piece.lexemes).map
        (Lexeme.replace (Span.shift distance)) := by
  induction text generalizing skip position with
  | nil => rfl
  | cons c text ih =>
      have later (skip : Nat) := ih skip (position + 1)
      rw [Nat.add_right_comm] at later
      cases skip with
      | succ skip => exact later skip
      | zero =>
          rw [piecesFrom, piecesFrom]
          split
          · rfl
          · next chunk found =>
            rw [List.flatMap_cons, List.flatMap_cons, List.map_append, later]
            exact congrArg (· ++ _) (chunk.lexemes_shift (c :: text) position distance)

/-- Where a scan begins does not matter for whether it reaches the end. -/
theorem scanFrom_snd_eq_none (done others : List Lexeme) (skip position other : Nat)
    (text : List Char) :
    (scanFrom done skip position text).2 = none ↔ (scanFrom others skip other text).2 = none := by
  induction text generalizing done others skip position other with
  | nil => exact Iff.rfl
  | cons c text ih =>
      cases skip with
      | succ skip => exact ih done others skip (position + 1) (other + 1)
      | zero =>
          rw [scanFrom, scanFrom]
          split
          · exact iff_of_false (Option.some_ne_none _) (Option.some_ne_none _)
          · exact ih _ _ _ _ _

theorem scan_of_unmarked (unmarked : text.head? ≠ some byteOrderMark) :
    scan text = scanFrom [] 0 0 text := by
  cases text with
  | nil => rfl
  | cons c rest =>
      rw [scan, if_neg]
      simpa using unmarked

theorem scan_byteOrderMark (rest : List Char) :
    scan (byteOrderMark :: rest) = scanFrom [] 0 1 rest :=
  rfl

/-- The lexemes of a text behind a byte order mark stand one place further on. -/
theorem lexemes_byteOrderMark (unmarked : text.head? ≠ some byteOrderMark) :
    (scan (byteOrderMark :: text)).1 =
      (scan text).1.map (Lexeme.replace (Span.shift 1)) := by
  rw [scan_byteOrderMark, scan_of_unmarked unmarked, scanFrom_fst, scanFrom_fst]
  exact lexemes_piecesFrom_shift 0 0 1 text

/-! ## Moved brackets -/

namespace TokenTree

variable {lexemes : List Lexeme} {frames others : List Frame}
  {before earlier trees : List TokenTree}

/-- Where brackets stand does not matter for whether they match. -/
theorem exists_groupFrom_replace (place : Span → Span) (earlier : List TokenTree)
    (same : frames.map (·.bracket) = others.map (·.bracket))
    (grouped : groupFrom frames before lexemes = .ok trees) :
    ∃ moved, groupFrom others earlier (lexemes.map (Lexeme.replace place)) = .ok moved := by
  induction lexemes generalizing frames others before earlier with
  | nil =>
      cases frames with
      | nil =>
          cases others with
          | nil => exact ⟨earlier.reverse, rfl⟩
          | cons => cases same
      | cons => cases grouped
  | cons lexeme lexemes ih =>
      cases lexeme with
      | leaf unit => exact ih _ same grouped
      | opening bracket span =>
          have sameFrames : (⟨bracket, span, before⟩ :: frames : List Frame).map (·.bracket) =
              (⟨bracket, place span, earlier⟩ :: others : List Frame).map (·.bracket) :=
            congrArg (bracket :: ·) same
          exact ih _ sameFrames grouped
      | closing bracket span =>
          cases frames with
          | nil => cases grouped
          | cons frame frames =>
              cases others with
              | nil => cases same
              | cons other others =>
                  rcases List.cons.inj same with ⟨sameBracket, sameRest⟩
                  rw [groupFrom] at grouped
                  split at grouped
                  · next matched =>
                    rw [List.map_cons, Lexeme.replace, groupFrom,
                      if_pos (sameBracket.symm.trans matched)]
                    exact ih _ sameRest grouped
                  · cases grouped

/-- A text has trees if it is scanned to its end and its brackets match. -/
theorem ofText_eq_ok_iff {text : List Char} :
    ofText text = .ok trees ↔ (scan text).2 = none ∧ group? (scan text).1 = .ok trees := by
  rw [ofText]
  generalize scan text = scanned
  rcases scanned with ⟨lexemes, fault⟩
  dsimp only
  split
  · next bad => simp [bad]
  · next position _ => simp
  · next position unclosed => simp [unclosed]
  · next found grouped =>
    rw [grouped]
    simp

/-- The trees of a text, written out, are the lexemes of its pieces. -/
theorem flatten_of_ofText {text : List Char} (found : ofText text = .ok trees) :
    flatten trees = (pieces text).flatMap Piece.lexemes := by
  rw [← scan_fst, scan_of_ofText found]

/-- All groups in the trees of a text have brackets. -/
theorem allBracketed_of_ofText {text : List Char} (found : ofText text = .ok trees) :
    AllBracketed trees :=
  allBracketed_of_groupFrom (ofText_eq_ok_iff.mp found).2 trivial nofun

/-- A text behind a byte order mark has trees if the text has, unless it begins with one
itself. -/
theorem exists_ofText_byteOrderMark (unmarked : rest.head? ≠ some byteOrderMark)
    (found : ofText rest = .ok trees) : ∃ moved, ofText (byteOrderMark :: rest) = .ok moved := by
  rcases ofText_eq_ok_iff.mp found with ⟨ends, grouped⟩
  rcases exists_groupFrom_replace (Span.shift 1) [] rfl grouped with ⟨moved, again⟩
  refine ⟨moved, ofText_eq_ok_iff.mpr ⟨?_, ?_⟩⟩
  · rw [scan_of_unmarked unmarked] at ends
    rw [scan_byteOrderMark]
    exact (scanFrom_snd_eq_none [] [] 0 0 1 rest).mp ends
  · rw [lexemes_byteOrderMark unmarked]
    exact again

/-- Behind a byte order mark no other one may stand. -/
theorem ofText_two_marks (rest : List Char) :
    ofText (byteOrderMark :: byteOrderMark :: rest) ≠ .ok trees := by
  intro found
  have ends := (ofText_eq_ok_iff.mp found).1
  rw [scan_byteOrderMark, scanFrom, Chunk.next?_byteOrderMark] at ends
  cases ends

end TokenTree

end ProgramGraph.Source
