import Mathlib.Data.List.Count
import ProgramGraph.Outline
import ProgramGraph.Proofs.Source.TokenTree

/-!
# Names and documentation in outlines and in texts

A mark is a name or a piece of documentation, known by its stretch.  An outline shows its
marks, and lexemes bear marks: a word bears a name, and the lexemes of an attribute bear
documentation.  Each lexeme is part of one mark at most.

Some syntax shows a word twice: the field of a struct that is also its value, and the lifetime
of a borrowed receiver.  The name then stands in front of an element that begins with it again.
Such a name is counted once, with the element.
-/

namespace ProgramGraph

open Source

/-- A name or a piece of documentation, by its stretch. -/
inductive Mark where
  | name (span : Span)
  | document (span : Span)
  deriving DecidableEq

/-! ## Marks of outlines -/

namespace Outline

/-- The name that outlines begin with as the first child of an element without attributes. -/
def leadingName? : List Outline → Option Span
  | element _ _ [] (name span :: _) :: _ => some span
  | _ => none

/-- Whether an outline is an element that begins with a name that stands before it, and shows
it no more than once. -/
def repeats (before : Span) : Outline → Bool
  | element _ _ [] (name first :: rest) => before == first && leadingName? rest != some before
  | _ => false

/-- Whether an outline is a name that the next one repeats. -/
def isRepeatedBy : Outline → List Outline → Bool
  | name span, next :: _ => next.repeats span
  | _, _ => false

theorem isRepeatedBy_nil (outline : Outline) : outline.isRepeatedBy [] = false := by
  cases outline <;> rfl

theorem isRepeatedBy_append_cons (outline next : Outline) (front back : List Outline) :
    outline.isRepeatedBy (next :: front ++ back) = outline.isRepeatedBy (next :: front) := by
  cases outline <;> rfl

mutual

/-- How often an outline shows a mark. -/
def tally (mark : Mark) : Outline → Nat
  | element _ _ attributes children => tallyAll mark attributes + tallyAll mark children
  | name span => if mark = .name span then 1 else 0
  | document span _ => if mark = .document span then 1 else 0
  | ascription attributes pattern type =>
      tallyAll mark attributes + (pattern.tally mark + type.tally mark)

/-- How often outlines show a mark. -/
def tallyAll (mark : Mark) : List Outline → Nat
  | [] => 0
  | outline :: outlines =>
      (if outline.isRepeatedBy outlines then 0 else outline.tally mark) + tallyAll mark outlines

end

variable {mark : Mark}

attribute [simp, grind =] tally

@[simp, grind =]
theorem tallyAll_nil : tallyAll mark [] = 0 :=
  rfl

@[simp, grind =]
theorem tallyAll_singleton (outline : Outline) : tallyAll mark [outline] = outline.tally mark := by
  simp [tallyAll, isRepeatedBy_nil]

theorem tallyAll_cons (outline : Outline) (outlines : List Outline) :
    tallyAll mark (outline :: outlines) =
      (if outline.isRepeatedBy outlines then 0 else outline.tally mark) +
        tallyAll mark outlines := by
  rw [tallyAll]

@[grind! .]
theorem tallyAll_cons_le (outline : Outline) (outlines : List Outline) :
    tallyAll mark (outline :: outlines) ≤ outline.tally mark + tallyAll mark outlines := by
  rw [tallyAll_cons]
  split
  · omega
  · omega

@[grind! .]
theorem tallyAll_append_le (front back : List Outline) :
    tallyAll mark (front ++ back) ≤ tallyAll mark front + tallyAll mark back := by
  induction front with
  | nil => exact Nat.le_add_left _ _
  | cons outline front ih =>
      cases front with
      | nil =>
          rw [tallyAll_singleton]
          exact tallyAll_cons_le outline back
      | cons next front =>
          rw [List.cons_append, tallyAll_cons, isRepeatedBy_append_cons, tallyAll_cons outline]
          omega

@[grind! .]
theorem tallyAll_append_three_le (first second third : List Outline) :
    tallyAll mark (first ++ (second ++ third)) ≤
      tallyAll mark first + (tallyAll mark second + tallyAll mark third) :=
  Nat.le_trans (tallyAll_append_le first _)
    (Nat.add_le_add_left (tallyAll_append_le second third) _)

@[grind! .]
theorem tallyAll_append_four_le (first second third fourth : List Outline) :
    tallyAll mark (first ++ (second ++ (third ++ fourth))) ≤
      tallyAll mark first + (tallyAll mark second + (tallyAll mark third + tallyAll mark fourth)) :=
  Nat.le_trans (tallyAll_append_le first _)
    (Nat.add_le_add_left (tallyAll_append_three_le second third fourth) _)

/-- A name in front of an element that repeats it adds nothing. -/
theorem tallyAll_repeated {next : Outline} {span : Span} (outlines : List Outline)
    (repeated : next.repeats span) :
    tallyAll mark (name span :: next :: outlines) = tallyAll mark (next :: outlines) := by
  rw [tallyAll_cons, isRepeatedBy, if_pos repeated, Nat.zero_add]

theorem tallyAll_attributes_add_children_le (outline : Outline) :
    tallyAll mark outline.attributes + tallyAll mark outline.children ≤ outline.tally mark := by
  cases outline with
  | element => exact Nat.le_refl _
  | _ => exact Nat.zero_le _

@[grind! .]
theorem tallyAll_children_le (outline : Outline) :
    tallyAll mark outline.children ≤ outline.tally mark :=
  Nat.le_trans (Nat.le_add_left _ _) (tallyAll_attributes_add_children_le outline)

/-- The children of outlines show no more than these. -/
@[grind! .]
theorem tallyAll_childrenOf_le (outlines : List Outline) :
    tallyAll mark (outlines.map children).flatten ≤ tallyAll mark outlines := by
  induction outlines with
  | nil => exact Nat.le_refl _
  | cons outline outlines ih =>
      rw [List.map_cons, List.flatten_cons, tallyAll_cons]
      have both : tallyAll mark _ ≤ _ :=
        tallyAll_append_le outline.children (outlines.map children).flatten
      have own : tallyAll mark _ ≤ _ := tallyAll_children_le outline
      split
      · next repeated =>
        cases outline with
        | name => simpa [children] using ih
        | _ => cases repeated
      · omega

@[grind! .]
theorem tally_attach_le (start : Nat) (new : List Outline) (outline : Outline) :
    (outline.attach start new).tally mark ≤ tallyAll mark new + outline.tally mark := by
  cases outline with
  | element form span attributes children =>
      rw [attach]
      split
      · exact Nat.le_add_left _ _
      · have both : tallyAll mark (new ++ attributes) ≤ _ := tallyAll_append_le new attributes
        simp only [tally]
        omega
  | _ => exact Nat.le_add_left _ _

/-- Only elements are given attributes, so the same names are repeated as before. -/
theorem isRepeatedBy_attachLeft (start : Nat) (new : List Outline) (outline : Outline)
    (outlines : List Outline) :
    (outline.attachLeft start new).isRepeatedBy outlines = outline.isRepeatedBy outlines := by
  fun_cases attachLeft start new outline with
  | case1 => rfl
  | case2 => rfl
  | case3 =>
      rw [attach]
      split <;> rfl
  | case4 =>
      cases outline with
      | element =>
          rw [attach]
          split <;> rfl
      | _ => rfl

@[grind! .]
theorem tally_attachLeft_le (start : Nat) (new : List Outline) (outline : Outline) :
    (outline.attachLeft start new).tally mark ≤ tallyAll mark new + outline.tally mark := by
  fun_induction attachLeft start new outline with
  | case1 => exact Nat.le_add_left _ _
  | case2 form span attributes left children operator given left' first ih =>
      simp only [tally, tallyAll_cons, left', isRepeatedBy_attachLeft]
      split
      · omega
      · omega
  | case3 => exact tally_attach_le start new _
  | case4 => exact tally_attach_le start new _

end Outline

/-! ## Marks of lexemes -/

/-- Lexemes bear marks one after the other: a word bears its name, and lexemes from a number
sign to a closing bracket bear documentation. -/
inductive Bears : List Lexeme → List Mark → Prop
  | nothing : Bears [] []
  | skip {lexemes : List Lexeme} {marks : List Mark} (lexeme : Lexeme) :
      Bears lexemes marks → Bears (lexeme :: lexemes) marks
  | name {lexemes : List Lexeme} {marks : List Mark} (text : String) (span : Span) :
      Bears lexemes marks → Bears (.leaf ⟨.word, text, span⟩ :: lexemes) (.name span :: marks)
  | document {lexemes : List Lexeme} {marks : List Mark} (joint : Bool) (first last : Span)
      (inner : List Lexeme) :
      Bears lexemes marks →
        Bears (.leaf ⟨.mark joint, "#", first⟩ :: (inner ++ .closing .square last :: lexemes))
          (.document ⟨first.first, last.last⟩ :: marks)

namespace Bears

variable {front back lexemes : List Lexeme} {marks others : List Mark}

/-- Lexemes need not bear anything. -/
theorem none (lexemes : List Lexeme) : Bears lexemes [] := by
  induction lexemes with
  | nil => exact .nothing
  | cons lexeme lexemes ih => exact ih.skip lexeme

theorem append (first : Bears front marks) (second : Bears back others) :
    Bears (front ++ back) (marks ++ others) := by
  induction first with
  | nothing => exact second
  | skip lexeme _ ih => exact ih.skip lexeme
  | name text span _ ih => exact ih.name text span
  | document joint first last inner _ ih =>
      rw [List.cons_append, List.append_assoc, List.cons_append]
      exact ih.document joint first last inner

/-- Further lexemes may follow. -/
theorem append_right (bears : Bears front marks) (back : List Lexeme) :
    Bears (front ++ back) marks := by
  have both := bears.append (none back)
  rwa [List.append_nil] at both

end Bears

end ProgramGraph
