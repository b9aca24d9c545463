import Mathlib.Data.List.TakeWhile
import ProgramGraph.Extraction.SourceText
import ProgramGraph.Proofs.Lines

/-!
# Positions of the syntax in the file

What is passed over for syntax alone stands at the front of a file and holds no line feed.  So
the lines of the syntax are those of the file, but for the first one, which may begin later in
the file.  A position on the first line of the syntax is carried over as it is, and a position
on another line is moved by the length of what was passed over.  Carried positions keep their
order.
-/

namespace ProgramGraph

open Source

/-! ## Positions that are carried over -/

namespace SourceText

/-- Of a file its syntax is what stands behind `front`, which holds no line feed. -/
structure Follows (source : SourceText) (front : List Char) : Prop where
  chars : source.chars = front ++ source.syntaxChars
  oneLine : '\n' ∉ front
  lines : source.lines = .ofChars source.chars
  syntaxLines : source.syntaxLines = .ofChars source.syntaxChars

theorem exists_dropByteOrderMark (text : List Char) :
    ∃ front, text = front ++ dropByteOrderMark text ∧ '\n' ∉ front := by
  cases text with
  | nil => exact ⟨[], rfl, List.not_mem_nil⟩
  | cons c text =>
      rw [dropByteOrderMark]
      split
      · next marked =>
        rw [eq_of_beq marked]
        exact ⟨[byteOrderMark], rfl, by decide⟩
      · exact ⟨[], rfl, List.not_mem_nil⟩

theorem exists_dropInterpreter (text : List Char) :
    ∃ front, text = front ++ dropInterpreter text ∧ '\n' ∉ front := by
  rw [dropInterpreter]
  split
  · refine ⟨text.takeWhile (· != '\n'), List.takeWhile_append_dropWhile.symm, ?_⟩
    intro member
    have passed := List.mem_takeWhile_imp member
    simp at passed
  · exact ⟨[], rfl, List.not_mem_nil⟩

theorem exists_follows_ofString (source : String) :
    ∃ front, (ofString source).Follows front := by
  rcases exists_dropByteOrderMark (dropByteOrderMark source.toList) with
    ⟨mark, marked, noLine⟩
  rcases exists_dropInterpreter (dropByteOrderMark (dropByteOrderMark source.toList)) with
    ⟨first, named, oneLine⟩
  refine ⟨mark ++ first, ?_, ?_, rfl, rfl⟩
  · change dropByteOrderMark source.toList = _ ++ dropInterpreter _
    rw [List.append_assoc, ← named, ← marked]
  · rw [List.mem_append]
    exact not_or.mpr ⟨noLine, oneLine⟩

variable {source : SourceText} {front : List Char} {position : Nat}

namespace Follows

/-- A position on the first line stays, all others are moved. -/
theorem carry_eq (follows : source.Follows front) (position : Nat) :
    source.carry position =
      if source.syntaxLines.lineNumber position = 1 then position else position + front.length := by
  let starts := LineMap.startsFrom 0 source.syntaxChars
  have later : source.lines.laterStarts = starts.map (· + front.length) := by
    rw [follows.lines, follows.chars, LineMap.ofChars, LineMap.startsFrom_append,
      LineMap.startsFrom_of_not_mem 0 follows.oneLine, List.nil_append]
    exact LineMap.startsFrom_add 0 front.length _
  have syntaxLater : source.syntaxLines.laterStarts = starts := by
    rw [follows.syntaxLines]
    rfl
  have ordered : starts.Pairwise (· < ·) := (LineMap.pairwise_startsFrom 0 _).1
  have bound : starts.countP (· ≤ position) ≤ starts.length := List.countP_le_length
  simp only [carry, LineMap.locate, LineMap.lineNumber, LineMap.offsetOf, LineMap.starts, later,
    syntaxLater, List.length_map]
  cases counted : starts.countP (· ≤ position) with
  | zero => simp
  | succ index =>
      have within : index < starts.length := by omega
      have reached : starts.getD index 0 ≤ position :=
        LineMap.getD_le_of_lt_countP ordered (by omega)
      have least : min (index + 1 + 1 - 1) starts.length = index + 1 := by omega
      rw [List.getD_eq_getElem _ _ within] at reached
      simp only [least, List.getD_cons_succ, List.getD_eq_getElem _ _ within,
        List.getD_eq_getElem _ _ (show index < (starts.map (· + front.length)).length by simpa),
        List.getElem_map]
      rw [if_neg (by omega)]
      omega

/-- Behind the end of the first line everything is moved. -/
theorem carry_of_lineFeed (follows : source.Follows front)
    (begins : source.syntaxChars.head? = some '\n') (behind : 0 < position) :
    source.carry position = position + front.length := by
  rcases List.head?_eq_some_iff.mp begins with ⟨rest, text⟩
  rw [follows.carry_eq, if_neg]
  rw [follows.syntaxLines, text]
  have reached : (1 :: LineMap.startsFrom 1 rest).countP (· ≤ position) =
      (LineMap.startsFrom 1 rest).countP (· ≤ position) + 1 :=
    List.countP_cons_of_pos (decide_eq_true behind)
  change (1 :: LineMap.startsFrom 1 rest).countP (· ≤ position) + 1 ≠ 1
  omega

/-- Carried positions keep their order. -/
theorem strictMono_carry (follows : source.Follows front) : StrictMono source.carry := by
  intro before after less
  have lines := source.syntaxLines.lineNumber_mono (Nat.le_of_lt less)
  have positive := source.syntaxLines.lineNumber_pos before
  rw [follows.carry_eq, follows.carry_eq]
  split
  · split <;> omega
  · rw [if_neg (by omega)]
    omega

theorem carry_injective (follows : source.Follows front) : source.carry.Injective :=
  follows.strictMono_carry.injective

theorem carrySpan_injective (follows : source.Follows front) : source.carrySpan.Injective := by
  intro span other same
  rcases span with ⟨first, last⟩
  rcases other with ⟨otherFirst, otherLast⟩
  cases follows.carry_injective (congrArg Span.first same)
  cases follows.carry_injective (congrArg Span.last same)
  rfl

/-- What is moved shows in the file what it shows in the syntax. -/
theorem slice_eq (follows : source.Follows front) {span : Span}
    (first : source.carry span.first = span.first + front.length)
    (last : source.carry span.last = span.last + front.length) :
    source.slice (source.carrySpan span) =
      (source.syntaxChars.take span.last).drop span.first := by
  rw [slice, carrySpan, first, last, follows.chars, Nat.add_comm span.last, Nat.add_comm span.first,
    List.take_length_add_append, List.drop_length_add_append]

end Follows

end SourceText

end ProgramGraph
