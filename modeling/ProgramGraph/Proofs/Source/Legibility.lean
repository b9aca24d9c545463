import ProgramGraph.Proofs.Source.Shift
import ProgramGraph.Proofs.Source.Tokens

/-!
# Leaves of texts read as what they are

A mark is one of the punctuation characters, and a literal holds something that no delimiter, mark
or keyword holds: a number begins with a digit, and quoted text has quotes, or an apostrophe among
other characters.  So every leaf of a text reads as what it is.
-/

namespace ProgramGraph.Source

variable {text chars : List Char} {length : Nat} {span : Span} {chunk : Chunk} {c : Char}

/-! ## Characters of literals -/

/-- A text with a digit or a quote in it, or with an apostrophe among other characters. -/
def IsLiteral (chars : List Char) : Prop :=
  (∃ c ∈ chars, c.isDigit ∨ c = '"') ∨ '\'' ∈ chars ∧ ∀ c, chars ≠ [c]

/-- No keyword has digits, quotes or apostrophes. -/
theorem isKeyword_ofList (member : c ∈ chars) (told : c.isDigit ∨ c = '"' ∨ c = '\'') :
    isKeyword (String.ofList chars) = false := by
  have free : keywords.all fun word =>
      word.toList.all fun c => ¬(c.isDigit ∨ c = '"' ∨ c = '\'') := by decide +kernel
  rw [← Bool.not_eq_true]
  intro keyword
  have letters := List.all_eq_true.mp free _ (List.contains_iff_mem.mp keyword)
  rw [String.toList_ofList] at letters
  exact of_decide_eq_true (List.all_eq_true.mp letters c member) told

/-- Delimiters and punctuation marks have one character each. -/
theorem apart_of_ne_singleton (long : ∀ c, chars ≠ [c]) :
    Delimiter.ofText? (String.ofList chars) = none ∧
      isPunctuation (String.ofList chars) = false := by
  rw [Delimiter.ofText?, isPunctuation, String.toList_ofList]
  constructor
  · split
    · exact absurd rfl (long _)
    · rfl
  · split
    · exact absurd rfl (long _)
    · rfl

/-- Digits and quotes are neither delimiters nor punctuation marks. -/
theorem apart_of_digit_or_quote (told : c.isDigit ∨ c = '"') :
    Delimiter.ofText? (String.ofList [c]) = none ∧ isPunctuation (String.ofList [c]) = false := by
  have marks : Chunk.marks.all fun mark => ¬(mark.isDigit ∨ mark = '"') := by decide +kernel
  have opening : Bracket.ofOpening? c = none := by
    unfold Bracket.ofOpening?
    split <;> first | rfl | exact absurd told (by decide)
  have closing : Bracket.ofClosing? c = none := by
    unfold Bracket.ofClosing?
    split <;> first | rfl | exact absurd told (by decide)
  constructor
  · simp [Delimiter.ofText?, opening, closing]
  · rw [← Bool.not_eq_true, isPunctuation, String.toList_ofList]
    intro mark
    exact of_decide_eq_true (List.all_eq_true.mp marks c (List.contains_iff_mem.mp mark)) told

theorem IsLiteral.isLegible (literal : IsLiteral chars) :
    Leaf.isLegible ⟨.literal, String.ofList chars, span⟩ := by
  apply Leaf.isLegible_literal.mpr
  rcases literal with ⟨c, member, told⟩ | ⟨apostrophe, long⟩
  · have keyword := isKeyword_ofList member (told.imp_right .inl)
    by_cases long : ∀ d, chars ≠ [d]
    · exact ⟨(apart_of_ne_singleton long).1, (apart_of_ne_singleton long).2, keyword⟩
    · rcases not_forall_not.mp long with ⟨d, rfl⟩
      rw [List.mem_singleton.mp member] at told
      exact ⟨(apart_of_digit_or_quote told).1, (apart_of_digit_or_quote told).2, keyword⟩
  · have keyword := isKeyword_ofList apostrophe (.inr (.inr rfl))
    exact ⟨(apart_of_ne_singleton long).1, (apart_of_ne_singleton long).2, keyword⟩

/-- What begins with a literal text is one. -/
theorem IsLiteral.append (literal : IsLiteral chars) (more : List Char) :
    IsLiteral (chars ++ more) := by
  rcases literal with ⟨c, member, told⟩ | ⟨apostrophe, long⟩
  · exact .inl ⟨c, List.mem_append_left more member, told⟩
  · refine .inr ⟨List.mem_append_left more apostrophe, fun c single => ?_⟩
    rcases List.append_eq_singleton_iff.mp single with ⟨rfl, -⟩ | ⟨same, -⟩
    · cases apostrophe
    · exact long c same

/-! ## Numbers -/

namespace Number

end Number

/-! ## Quoted text -/

namespace Quoted

end Quoted

/-! ## Leaves -/

namespace Chunk

/-- What can be read off a chunk at the front of a text. -/
def Reads (text : List Char) : Chunk → Prop
  | comment _ _ length => startsWithMark text = false ∧ 1 < length
  | leaf (.mark joint) length =>
      ∃ c rest, text = c :: rest ∧ length = 1 ∧ startsWithMark text ∧
        joint = (c == '\'' || startsWithMark rest)
  | leaf .literal length =>
      text.head? ≠ some '/' ∧ (IsLiteral (text.take length) ∨ text.take length = brokenLiteral)
  | leaf .word _ => text.head? ≠ some '/'
  | _ => startsWithMark text = false

end Chunk

end ProgramGraph.Source
