import Mathlib.Data.List.Basic
import ProgramGraph.Source.Scan

/-!
# How much is scanned

The scanners of literals and words count characters.  Whatever such a scanner takes from the
front of a text is not empty, and it is a part of the text.
-/

namespace ProgramGraph.Source

variable {text rest : List Char} {count length : Nat} {result : Option Nat} {c : Char}

/-! ## Counting -/

/-- A scanner that has counted some characters before a text goes on in the text, and not
beyond its end. -/
def Takes (count : Nat) (text : List Char) (result : Option Nat) : Prop :=
  ∀ length, result = some length → count ≤ length ∧ length ≤ count + text.length

namespace Takes

theorem none (count : Nat) (text : List Char) : Takes count text none :=
  fun _ found => by cases found

theorem some (atLeast : count ≤ length) (atMost : length ≤ count + text.length) :
    Takes count text (some length) := by
  intro found same
  cases same
  exact ⟨atLeast, atMost⟩

/-- A scanner may stop where it is. -/
theorem stop (count : Nat) (text : List Char) : Takes count text (.some count) :=
  .some (Nat.le_refl count) (Nat.le_add_right count text.length)

/-- A scanner may pass over a character. -/
theorem pass (later : Takes (count + 1) text result) : Takes count (c :: text) result := by
  intro length found
  have bounds := later length found
  rw [List.length_cons]
  omega

end Takes

/-- What is taken from the front of a text is not empty, and it is a part of the text. -/
def Cuts (text : List Char) (result : Option Nat) : Prop :=
  ∀ length, result = some length → 0 < length ∧ length ≤ text.length

namespace Cuts

theorem none (text : List Char) : Cuts text none :=
  fun _ found => by cases found

end Cuts

/-- After a mark of some characters a scanner goes on. -/
theorem Takes.cuts {mark : Nat} (later : Takes 0 rest result) (marked : 0 < mark)
    (fits : mark + rest.length ≤ text.length) : Cuts text (result.map (· + mark)) := by
  intro length found
  rcases Option.map_eq_some_iff.mp found with ⟨taken, same, rfl⟩
  have bounds := later taken same
  omega

/-! ## Words -/

theorem cuts_identifierLength (text : List Char) : Cuts text (identifierLength text) := by
  cases text with
  | nil => exact .none []
  | cons c text =>
      intro length found
      have part := (List.takeWhile_sublist (p := Unicode.isIdentifierPart) (l := text)).length_le
      rw [identifierLength] at found
      split at found
      · cases found
        rw [List.length_cons]
        omega
      · cases found

/-- A suffix is what it is of the rest of a text. -/
theorem suffixLength_le (text : List Char) : suffixLength text ≤ text.length := by
  rw [suffixLength]
  cases found : identifierLength text with
  | none => exact Nat.zero_le _
  | some length => exact (cuts_identifierLength text length found).2

theorem add_suffixLength_le (inside : length ≤ text.length) :
    length + suffixLength (text.drop length) ≤ text.length := by
  have suffix := suffixLength_le (text.drop length)
  rw [List.length_drop] at suffix
  omega

/-! ## Numbers -/

namespace Number

theorem takes_digitsLength (base : Nat) (seen : Bool) (count : Nat) (text : List Char) :
    Takes count text (digitsLength base seen count text) := by
  fun_induction digitsLength base seen count text <;>
    first | exact .none _ _ | exact .stop _ _ | exact .pass ‹_›

/-- Where no digit was seen before, one is taken. -/
theorem lt_of_digitsLength {base : Nat} (found : digitsLength base false count text = some length) :
    count < length := by
  cases text with
  | nil => cases found
  | cons c text =>
      rw [digitsLength] at found
      simp only [Bool.not_false, Bool.true_and, Bool.false_eq_true, if_false] at found
      repeat' split at found
      all_goals first
        | exact (takes_digitsLength _ _ _ _ _ found).1
        | cases found

theorem mark_le_length (text : List Char) : (base text).2 ≤ text.length := by
  unfold base
  split
  case h_4 => exact Nat.zero_le _
  all_goals exact Nat.le_add_left 2 _

theorem cuts_wholeLength (text : List Char) : Cuts text (wholeLength text) := by
  intro length found
  have marked := mark_le_length text
  rw [wholeLength] at found
  generalize base text = announced at found marked
  rcases announced with ⟨base, mark⟩
  rcases Option.bind_eq_some_iff.mp found with ⟨digits, counted, found⟩
  have positive := lt_of_digitsLength counted
  have bounds := takes_digitsLength base false 0 _ digits counted
  rw [List.length_drop] at bounds
  have inside : mark + digits ≤ text.length := by omega
  have suffix := add_suffixLength_le inside
  dsimp only at found
  split at found
  · cases found
    omega
  · cases found

theorem takes_exponentLength (signed seen : Bool) (count : Nat) (text : List Char) :
    Takes count text (exponentLength signed seen count text) := by
  fun_induction exponentLength signed seen count text <;>
    first | exact .none _ _ | exact .stop _ _ | exact .pass ‹_›

theorem takes_fractionRest (point : Bool) (count : Nat) (text : List Char) :
    Takes count text (fractionRest point count text) := by
  fun_induction fractionRest point count text
  case case5 => exact .pass (.stop _ [])
  case case8 exponent =>
      rw [← exponent]
      exact .pass (takes_exponentLength false false _ _)
  all_goals first | exact .none _ _ | exact .stop _ _ | exact .pass ‹_›

theorem cuts_fractionLength (text : List Char) : Cuts text (fractionLength text) := by
  intro length found
  cases text with
  | nil => cases found
  | cons c text =>
      rw [fractionLength] at found
      split at found
      · cases found
      · rcases Option.bind_eq_some_iff.mp found with ⟨digits, counted, found⟩
        have bounds := takes_fractionRest false 1 text digits counted
        have inside : digits ≤ (c :: text).length := by
          rw [List.length_cons]
          omega
        have suffix := add_suffixLength_le inside
        dsimp only at found
        split at found
        · cases found
          omega
        · cases found

end Number

/-! ## Quoted text -/

namespace Quoted

theorem takes_stringRest (dialect : Dialect) (skip count : Nat) (text : List Char) :
    Takes count text (stringRest dialect skip count text) := by
  fun_induction stringRest dialect skip count text
  case case3 => exact .pass (.stop _ _)
  all_goals first | exact .none _ _ | exact .pass ‹_›

theorem takes_rawRest (admits : Char → Bool) (signs skip count : Nat) (text : List Char) :
    Takes count text (rawRest admits signs skip count text) := by
  fun_induction rawRest admits signs skip count text
  case case3 closed =>
      rw [Bool.and_eq_true, beq_iff_eq, beq_iff_eq] at closed
      have inside := congrArg List.length closed.2
      rw [List.length_take, List.length_replicate] at inside
      apply Takes.some
      · omega
      · rw [List.length_cons]
        omega
  all_goals first | exact .none _ _ | exact .pass ‹_›

theorem takes_rawLength (admits : Char → Bool) (text : List Char) :
    Takes 0 text (rawLength admits text) := by
  intro length found
  rw [rawLength] at found
  split at found
  · next body rest =>
    split at found
    · cases found
    · rcases Option.map_eq_some_iff.mp found with ⟨taken, closed, rfl⟩
      have bounds := takes_rawRest admits _ 0 0 body taken closed
      have whole := congrArg List.length rest
      rw [List.length_drop, List.length_cons] at whole
      omega
  · cases found

theorem takes_characterRest (dialect : Dialect) (text : List Char) :
    Takes 0 text (characterRest dialect text) := by
  intro length found
  unfold characterRest at found
  split at found
  · next text =>
    rcases Option.bind_eq_some_iff.mp found with ⟨escaped, -, found⟩
    split at found
    · next closed =>
      cases found
      rcases List.getElem?_eq_some_iff.mp (beq_iff_eq.mp closed) with ⟨inside, -⟩
      rw [List.length_cons]
      omega
    · cases found
  · split at found
    · cases found
      simp
    · cases found
  · cases found

theorem cuts_bareLength (text : List Char) : Cuts text (bareLength text) := by
  unfold bareLength
  split
  case h_9 => exact .none _
  all_goals
    first
    | exact (takes_stringRest _ 0 0 _).cuts (by decide) (Nat.le_of_eq (Nat.add_comm ..))
    | exact (takes_rawLength _ _).cuts (by decide) (Nat.le_of_eq (Nat.add_comm ..))
    | exact (takes_characterRest _ _).cuts (by decide) (Nat.le_of_eq (Nat.add_comm ..))

theorem cuts_length? (text : List Char) : Cuts text (length? text) := by
  intro length found
  rcases Option.map_eq_some_iff.mp found with ⟨bare, quoted, rfl⟩
  rcases cuts_bareLength text bare quoted with ⟨positive, inside⟩
  have suffix := add_suffixLength_le inside
  omega

end Quoted

/-! ## Chunks -/

namespace Chunk

theorem cuts_wordLength (text : List Char) : Cuts text (wordLength text) := by
  intro length found
  unfold wordLength at found
  split at found
  · next text =>
    rcases Option.bind_eq_some_iff.mp found with ⟨taken, word, found⟩
    have bounds := cuts_identifierLength text taken word
    dsimp only at found
    split at found
    · cases found
    · cases found
      rw [List.length_cons, List.length_cons]
      omega
  · exact cuts_identifierLength _ length found

theorem cuts_literalLength (text : List Char) : Cuts text (literalLength text) := by
  unfold literalLength
  split
  · next quoted => exact quoted ▸ Quoted.cuts_length? text
  · split
    · next fraction => exact fraction ▸ Number.cuts_fractionLength text
    · exact Number.cuts_wholeLength text

end Chunk

end ProgramGraph.Source
