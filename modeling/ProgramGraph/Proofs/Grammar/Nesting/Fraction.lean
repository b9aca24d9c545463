import Mathlib.Data.String.Basic
import ProgramGraph.Grammar.Expression
import ProgramGraph.Proofs.Grammar.Nesting.Fits

/-!
# Fractions as fields

A fraction such as `0.1` after a dot selects one field after the other.  Its parts are those between
its dots, and so the fields end one behind the other, none behind the fraction.
-/

namespace ProgramGraph.Grammar

open Outline

/-! ## The parts of a text -/

/-- At a dot the part before it is found, and any other character belongs to the part. -/
theorem splitOnAux_cons (front middle back : List Char) (c : Char) (found : List String) :
    String.splitOnAux (.ofList (front ++ middle ++ c :: back)) "." ⟨String.utf8Len front⟩
        ⟨String.utf8Len front + String.utf8Len middle⟩ 0 found =
      if c == '.' then
        String.splitOnAux (.ofList (front ++ middle ++ c :: back)) "."
          ⟨String.utf8Len front + String.utf8Len middle + 1⟩
          ⟨String.utf8Len front + String.utf8Len middle + 1⟩ 0 (.ofList middle :: found)
      else
        String.splitOnAux (.ofList (front ++ middle ++ c :: back)) "." ⟨String.utf8Len front⟩
          ⟨String.utf8Len front + String.utf8Len middle + c.utf8Size⟩ 0 found := by
  have goesOn : ¬String.Pos.Raw.atEnd (.ofList (front ++ middle ++ c :: back))
      ⟨String.utf8Len front + String.utf8Len middle⟩ = true := by
    have := c.utf8Size_pos
    simp only [String.atEnd_iff, String.rawEndPos_ofList, String.utf8Len_append,
      String.Pos.Raw.mk_le_mk, String.utf8Len_cons]
    omega
  have here : String.Pos.Raw.get (.ofList (front ++ middle ++ c :: back))
      ⟨String.utf8Len front + String.utf8Len middle⟩ = c := by
    rw [← String.utf8Len_append, String.get_of_valid (front ++ middle) (c :: back),
      List.headD_cons]
  have next : String.Pos.Raw.next (.ofList (front ++ middle ++ c :: back))
      ⟨String.utf8Len front + String.utf8Len middle⟩ =
        ⟨String.utf8Len front + String.utf8Len middle + c.utf8Size⟩ := by
    rw [← String.utf8Len_append, String.next_of_valid (front ++ middle) c back]
  have dot : String.Pos.Raw.get "." 0 = '.' := by decide
  have afterDot : String.Pos.Raw.next "." 0 = ⟨1⟩ := by decide
  have dotEnded : String.Pos.Raw.atEnd "." ⟨1⟩ = true := by decide
  rw [String.splitOnAux, if_neg goesOn, here, next, dot, afterDot, if_pos dotEnded]
  split
  · next same =>
    have size : c.utf8Size = 1 := by rw [beq_iff_eq.mp same]; rfl
    have begins : String.Pos.Raw.unoffsetBy
        ⟨String.utf8Len front + String.utf8Len middle + 1⟩ ⟨1⟩ =
          ⟨String.utf8Len front + String.utf8Len middle⟩ := rfl
    rw [size, begins, String.extract_of_valid front middle]
  · have begins : String.Pos.Raw.unoffsetBy
        ⟨String.utf8Len front + String.utf8Len middle⟩ 0 =
          ⟨String.utf8Len front + String.utf8Len middle⟩ := rfl
    rw [begins, next]

theorem splitOnAux_dot (front middle back : List Char) (found : List String) :
    String.splitOnAux (.ofList (front ++ middle ++ back)) "." ⟨String.utf8Len front⟩
        ⟨String.utf8Len front + String.utf8Len middle⟩ 0 found =
      found.reverse ++ (List.splitOnPPrepend (· == '.') back middle.reverse).map String.ofList := by
  induction back generalizing front middle found with
  | nil =>
      have ended : String.Pos.Raw.atEnd (.ofList (front ++ middle ++ []))
          ⟨String.utf8Len front + String.utf8Len middle⟩ = true := by
        simp only [String.atEnd_iff, String.rawEndPos_ofList, String.utf8Len_append,
          String.Pos.Raw.mk_le_mk, String.utf8Len_nil]
        omega
      rw [String.splitOnAux, if_pos ended, String.extract_of_valid front middle []]
      simp
  | cons c back ih =>
      rw [splitOnAux_cons, List.splitOnPPrepend_cons_eq_if]
      split
      · next same =>
        have rest := ih (front ++ middle ++ [c]) [] (.ofList middle :: found)
        have size : c.utf8Size = 1 := by rw [beq_iff_eq.mp same]; rfl
        have text : front ++ middle ++ [c] ++ [] ++ back = front ++ middle ++ c :: back := by simp
        have begins : String.utf8Len (front ++ middle ++ [c]) =
            String.utf8Len front + String.utf8Len middle + 1 := by
          rw [String.utf8Len_append, String.utf8Len_append, String.utf8Len_cons,
            String.utf8Len_nil, size]
        rw [text, begins, String.utf8Len_nil, Nat.add_zero] at rest
        rw [rest]
        simp [List.splitOnPPrepend_nil_right]
      · have rest := ih front (middle ++ [c]) found
        have text : front ++ (middle ++ [c]) ++ back = front ++ middle ++ c :: back := by simp
        have ends : String.utf8Len front + String.utf8Len (middle ++ [c]) =
            String.utf8Len front + String.utf8Len middle + c.utf8Size := by
          rw [String.utf8Len_append, String.utf8Len_cons, String.utf8Len_nil]
          omega
        rw [text, ends] at rest
        rw [rest]
        simp

theorem splitOn_dot (text : String) :
    text.splitOn "." = (text.toList.splitOnP (· == '.')).map String.ofList := by
  have all := splitOnAux_dot [] [] text.toList []
  simpa [String.splitOn, List.splitOnPPrepend_nil_right] using all

/-- How long parts are together, each with a mark behind it. -/
def width : List String → Nat
  | [] => 0
  | part :: parts => part.length + 1 + width parts

theorem width_splitOn (text : String) : width (text.splitOn ".") = text.length + 1 := by
  have lengths : ∀ back front : List Char,
      width ((List.splitOnPPrepend (· == '.') back front).map String.ofList) =
        front.length + back.length + 1 := by
    intro back
    induction back with
    | nil =>
        intro front
        simp [width]
    | cons c back ih =>
        intro front
        rw [List.splitOnPPrepend_cons_eq_if]
        split
        · have rest := ih []
          rw [List.splitOnPPrepend_nil_right] at rest
          rw [List.map_cons, width, rest, String.length_ofList, List.length_reverse]
          simp only [List.length_nil, List.length_cons]
          omega
        · rw [ih, List.length_cons, List.length_cons]
          omega
  have all := lengths text.toList []
  rwa [List.splitOnPPrepend_nil_right, ← splitOn_dot, List.length_nil, Nat.zero_add,
    String.length_toList] at all

theorem width_dropLast_le (parts : List String) : width parts.dropLast ≤ width parts := by
  induction parts with
  | nil => exact Nat.le_refl _
  | cons part parts ih =>
      cases parts with
      | nil => exact Nat.zero_le _
      | cons next others => exact Nat.add_le_add_left ih _

/-! ## Fields -/

/-- Fields of an operand, one selected after the other. -/
def selected (start : Nat) (ends : List Nat) (operand : Outline) : Outline :=
  ends.foldl (fun field last => .element (.expression .field) ⟨start, last⟩ [] [field]) operand

theorem span_first_selected {start : Nat} (ends : List Nat) (operand : Outline)
    (first : operand.span.first = start) : (selected start ends operand).span.first = start := by
  induction ends generalizing operand with
  | nil => exact first
  | cons last ends ih => exact ih _ rfl

theorem isSome_form?_selected {start : Nat} (ends : List Nat) (operand : Outline)
    (isElement : operand.form?.isSome) : (selected start ends operand).form?.isSome := by
  induction ends generalizing operand with
  | nil => exact isElement
  | cons last ends ih => exact ih _ rfl

/-- Fields that are selected one after the other fit where the operand and the fraction do. -/
theorem fits_selected {low high position bound : Nat} {ends : List Nat} {operand : Outline}
    (parts : List String) (found : fieldEnds position parts = some ends)
    (fits : operand.Fits low bound) (isElement : operand.form?.isSome)
    (before : bound ≤ position) (le_high : bound ≤ high)
    (within : position + width parts ≤ high + 1) :
    (selected operand.span.first ends operand).Fits low high := by
  induction parts generalizing position bound ends operand with
  | nil =>
      cases found
      exact fits.mono (Nat.le_refl low) le_high
  | cons part parts ih =>
      have between := fits.between isElement
      rcases Option.bind_eq_some_iff.mp found with ⟨value, _, rest⟩
      dsimp only at rest
      split at rest
      · rcases Option.bind_eq_some_iff.mp rest with ⟨later, foundLater, same⟩
        cases same
        rw [width] at within
        have lt := between.lt
        have le_bound := between.le_high
        have field : (Outline.element (.expression .field)
            ⟨operand.span.first, position + part.length⟩ [] [operand]).Fits low
              (position + part.length) := by
          refine ⟨⟨between.low_le, ?_, Nat.le_refl _⟩, trivial, .inl ⟨?_, trivial⟩⟩
          · dsimp only
            omega
          · exact (fits.from_first isElement).mono (Nat.le_refl _) (by dsimp only; omega)
        have rest := ih foundLater field rfl (by omega) (by omega) (by omega)
        exact rest
      · cases rest

end ProgramGraph.Grammar
