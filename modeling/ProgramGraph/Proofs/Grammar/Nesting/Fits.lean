import ProgramGraph.Proofs.Grammar.Marks

/-!
# Outlines that fit into stretches of text

An outline fits between two positions if what it covers lies between them, and if what it holds
fits into what it covers.  The expression of a statement without text is the exception: it stands
at the beginning of the text, wherever the statement is.
-/

namespace ProgramGraph

open Source (Span)

/-- A stretch of text that is not empty lies between two positions. -/
structure Source.Span.Between (span : Span) (low high : Nat) : Prop where
  low_le : low ≤ span.first
  lt : span.first < span.last
  le_high : span.last ≤ high

namespace Outline

/-- The expression of a statement without text. -/
def nothing : Outline :=
  .element (.expression .verbatim) ⟨0, 0⟩ [] []

mutual

/-- An outline fits between two positions. -/
def Fits : Outline → Nat → Nat → Prop
  | element form span attributes children, low, high =>
      span.Between low high ∧ AllFit attributes span.first span.last ∧
        (AllFit children span.first span.last ∨
          form = .statement .expression ∧ children = [nothing])
  | name span, low, high => span.Between low high
  | document span _, low, high => span.Between low high
  | ascription attributes pattern type, low, high =>
      AllFit attributes low high ∧ pattern.Fits low high ∧ type.Fits low high

/-- Outlines fit between two positions. -/
def AllFit : List Outline → Nat → Nat → Prop
  | [], _, _ => True
  | outline :: outlines, low, high => outline.Fits low high ∧ AllFit outlines low high

end

variable {outline : Outline} {outlines front back new : List Outline} {low high start : Nat}

@[simp, grind =]
theorem allFit_nil : AllFit [] low high ↔ True :=
  Iff.rfl

@[simp, grind =]
theorem allFit_cons : AllFit (outline :: outlines) low high ↔
    outline.Fits low high ∧ AllFit outlines low high :=
  Iff.rfl

@[simp, grind =]
theorem allFit_append : AllFit (front ++ back) low high ↔
    AllFit front low high ∧ AllFit back low high := by
  induction front with
  | nil => exact (and_iff_right trivial).symm
  | cons outline front ih => rw [List.cons_append, allFit_cons, allFit_cons, ih, and_assoc]

mutual

/-- What fits between two positions fits between others that stand further apart. -/
theorem Fits.mono : {outline : Outline} → {low high wideLow wideHigh : Nat} →
    outline.Fits low high → wideLow ≤ low → high ≤ wideHigh → outline.Fits wideLow wideHigh
  | element _ _ _ _, _, _, _, _, ⟨⟨first, lt, last⟩, held⟩, less, more =>
      ⟨⟨Nat.le_trans less first, lt, Nat.le_trans last more⟩, held⟩
  | name _, _, _, _, _, ⟨first, lt, last⟩, less, more =>
      ⟨Nat.le_trans less first, lt, Nat.le_trans last more⟩
  | document _ _, _, _, _, _, ⟨first, lt, last⟩, less, more =>
      ⟨Nat.le_trans less first, lt, Nat.le_trans last more⟩
  | ascription _ _ _, _, _, _, _, ⟨attributes, pattern, type⟩, less, more =>
      ⟨attributes.mono less more, pattern.mono less more, type.mono less more⟩

theorem AllFit.mono : {outlines : List Outline} → {low high wideLow wideHigh : Nat} →
    AllFit outlines low high → wideLow ≤ low → high ≤ wideHigh →
      AllFit outlines wideLow wideHigh
  | [], _, _, _, _, _, _, _ => trivial
  | _ :: _, _, _, _, _, ⟨first, others⟩, less, more =>
      ⟨first.mono less more, others.mono less more⟩

end

/-- Nothing fits where there is no text. -/
theorem Fits.lt : {outline : Outline} → {low high : Nat} → outline.Fits low high → low < high
  | element _ _ _ _, _, _, ⟨⟨first, lt, last⟩, _⟩ =>
      Nat.lt_of_le_of_lt first (Nat.lt_of_lt_of_le lt last)
  | name _, _, _, ⟨first, lt, last⟩ => Nat.lt_of_le_of_lt first (Nat.lt_of_lt_of_le lt last)
  | document _ _, _, _, ⟨first, lt, last⟩ => Nat.lt_of_le_of_lt first (Nat.lt_of_lt_of_le lt last)
  | ascription _ _ _, _, _, ⟨_, pattern, _⟩ => pattern.lt

/-! ## Elements -/

/-- An element fits between its own beginning and whatever comes behind it. -/
theorem Fits.from_first (fits : outline.Fits low high) (element : outline.form?.isSome) :
    outline.Fits outline.span.first high := by
  cases outline with
  | element form span attributes children =>
      exact ⟨⟨Nat.le_refl _, fits.1.lt, fits.1.le_high⟩, fits.2⟩
  | _ => cases element

theorem Fits.between (fits : outline.Fits low high) (element : outline.form?.isSome) :
    outline.span.Between low high := by
  cases outline with
  | element form span attributes children => exact fits.1
  | _ => cases element

/-- The attributes of an element fit into it. -/
theorem Fits.attributes (fits : outline.Fits low high) : AllFit outline.attributes low high := by
  cases outline with
  | element form span attributes children =>
      exact fits.2.1.mono fits.1.low_le fits.1.le_high
  | _ => trivial

/-- The children of an element that is no statement fit into it. -/
theorem Fits.children (fits : outline.Fits low high)
    (noStatement : outline.form? ≠ some (.statement .expression)) :
    AllFit outline.children low high := by
  cases outline with
  | element form span attributes children =>
      rcases fits.2.2 with held | ⟨rfl, _⟩
      · exact held.mono fits.1.low_le fits.1.le_high
      · exact absurd rfl noStatement
  | _ => trivial

/-! ## Attributes -/

theorem isSome_form?_attach : (outline.attach start new).form?.isSome = outline.form?.isSome := by
  cases outline with
  | element form span attributes children =>
      rw [attach]
      split <;> rfl
  | _ => rfl

/-- An element does not begin later with attributes than without. -/
theorem attach_first_le (outline : Outline) (start : Nat) (new : List Outline)
    (start_le : start ≤ outline.span.first) :
    (outline.attach start new).span.first ≤ outline.span.first := by
  cases outline with
  | element form span attributes children =>
      rw [attach]
      split
      · exact Nat.le_refl _
      · exact start_le
  | _ => exact Nat.le_refl _

/-- Attributes may be put before what fits behind them.  The element begins where they do, or where
it did. -/
theorem Fits.attach (fits : outline.Fits low high) (newFit : AllFit new start low)
    (start_le : start ≤ low) :
    (outline.attach start new).Fits
      (if (outline.attach start new).span.first == start then start else low) high := by
  have kept : ∀ first, outline.Fits (if first == start then start else low) high := by
    intro first
    apply fits.mono _ (Nat.le_refl high)
    split
    · exact start_le
    · exact Nat.le_refl low
  cases outline with
  | element form span attributes children =>
      rw [Outline.attach]
      split
      · exact kept span.first
      · rcases fits with ⟨⟨low_le, lt, le_high⟩, attributesFit, childrenFit⟩
        have first : (start == start) = true := beq_self_eq_true start
        simp only [Outline.span, first, if_true]
        refine ⟨⟨Nat.le_refl start, by dsimp only; omega, le_high⟩, ?_, ?_⟩
        · rw [allFit_append]
          exact ⟨newFit.mono (Nat.le_refl start) (by dsimp only; omega),
            attributesFit.mono (by dsimp only; omega) (Nat.le_refl _)⟩
        · exact childrenFit.imp_left fun held => held.mono (by dsimp only; omega) (Nat.le_refl _)
  | name span => exact kept span.first
  | document span text => exact kept span.first
  | ascription attributes pattern type => exact kept pattern.span.first

@[simp]
theorem attach_nil (start : Nat) (outline : Outline) : outline.attach start [] = outline := by
  cases outline with
  | element form span attributes children => simp [attach]
  | _ => rfl

@[simp]
theorem attachLeft_nil (start : Nat) (outline : Outline) :
    outline.attachLeft start [] = outline := by
  fun_cases attachLeft start [] outline with
  | case1 => rfl
  | case2 form span attributes left children isOperator some => cases some rfl
  | case3 => exact attach_nil start _
  | case4 => exact attach_nil start _

theorem isSome_form?_attachLeft :
    (outline.attachLeft start new).form?.isSome = outline.form?.isSome := by
  fun_cases attachLeft start new outline with
  | case1 => rfl
  | case2 => rfl
  | case3 => exact isSome_form?_attach
  | case4 => exact isSome_form?_attach

/-- An element does not begin later if its first operand has attributes. -/
theorem attachLeft_first_le (outline : Outline) (start : Nat) (new : List Outline)
    (start_le : start ≤ outline.span.first) :
    (outline.attachLeft start new).span.first ≤ outline.span.first := by
  fun_cases Outline.attachLeft start new outline with
  | case1 => exact Nat.le_refl _
  | case2 form span attributes left children isOperator given left' first =>
      change (if left'.span.first == start then start else span.first) ≤ span.first
      split
      · exact start_le
      · exact Nat.le_refl _
  | case3 => exact attach_first_le _ start new start_le
  | case4 => exact attach_first_le _ start new start_le

/-- Attributes may be put before the first operand of what fits behind them. -/
theorem Fits.attachLeft (outline : Outline) : ∀ low high, outline.Fits low high →
    AllFit new start low → start ≤ low →
      (outline.attachLeft start new).Fits
        (if (outline.attachLeft start new).span.first == start then start else low) high := by
  fun_induction Outline.attachLeft start new outline with
  | case1 form span attributes left children isOperator none =>
      intro low high fits newFit start_le
      apply fits.mono _ (Nat.le_refl high)
      split
      · exact start_le
      · exact Nat.le_refl low
  | case2 form span attributes left children isOperator given left' first ih =>
      rintro low high ⟨⟨low_le, lt, le_high⟩, attributesFit, childrenFit⟩ newFit start_le
      have less : start ≤ span.first := Nat.le_trans start_le low_le
      have begins : first ≤ span.first := by
        dsimp only [first]
        split <;> omega
      have held : AllFit (left :: children) span.first span.last := by
        rcases childrenFit with held | ⟨same, _⟩
        · exact held
        · cases same
      have attached : left'.Fits first span.last :=
        ih span.first span.last held.1 (newFit.mono (Nat.le_refl start) low_le) less
      refine ⟨⟨?_, by dsimp only; omega, le_high⟩, ?_, .inl ⟨attached, ?_⟩⟩
      · change (if first == start then start else low) ≤ first
        grind
      · exact attributesFit.mono begins (Nat.le_refl _)
      · exact held.2.mono begins (Nat.le_refl _)
  | case3 => exact fun low high fits newFit start_le => fits.attach newFit start_le
  | case4 => exact fun low high fits newFit start_le => fits.attach newFit start_le

end Outline

end ProgramGraph
