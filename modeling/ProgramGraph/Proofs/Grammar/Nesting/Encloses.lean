import ProgramGraph.Proofs.Grammar.Layout
import ProgramGraph.Proofs.Grammar.Nesting.Fits
import ProgramGraph.Proofs.Grammar.Readers

/-!
# What trees enclose

What a reader shows fits into the trees that it takes, if these stand in place.  An element that
may still become the operand of another one begins no later than the last of these trees, so that
whatever follows it stands behind its beginning.
-/

namespace ProgramGraph.Grammar

open Source Outline

/-- Outlines fit into trees, if these stand in place. -/
def Encloses (taken : List TokenTree) (outlines : List Outline) : Prop :=
  TokenTree.AllInPlace taken →
    AllFit outlines (TokenTree.extent taken).first (TokenTree.extent taken).last

/-- An element fits into trees in place, and begins no later than the last of them. -/
structure Spans (taken : List TokenTree) (outline : Outline) : Prop where
  isElement : outline.form?.isSome
  fits : outline.Fits (TokenTree.extent taken).first (TokenTree.extent taken).last
  first_le : outline.span.first ≤ TokenTree.turn taken

/-- An element fits into trees, and begins no later than the last of them, if these stand in
place. -/
def Carries (taken : List TokenTree) (outline : Outline) : Prop :=
  TokenTree.AllInPlace taken → Spans taken outline

/-- The last of some trees is a group. -/
def EndsWithGroup (taken : List TokenTree) : Prop :=
  ∃ front group, taken = front ++ [group] ∧ group.isGroup

variable {taken front more inner : List TokenTree} {outlines others parts own : List Outline}
  {outline operand : Outline} {form : Form} {span : Span} {start : Nat}

attribute [grind =] List.append_eq_nil_iff

/-! ## Outlines in trees -/

@[simp, grind =]
theorem encloses_nil : Encloses taken [] ↔ True :=
  ⟨fun _ => trivial, fun _ _ => trivial⟩

@[grind =]
theorem encloses_cons :
    Encloses taken (outline :: outlines) ↔ Encloses taken [outline] ∧ Encloses taken outlines := by
  simp only [Encloses, allFit_cons, allFit_nil, and_true]
  exact ⟨fun both => ⟨fun inPlace => (both inPlace).1, fun inPlace => (both inPlace).2⟩,
    fun both inPlace => ⟨both.1 inPlace, both.2 inPlace⟩⟩

@[simp, grind =]
theorem encloses_append :
    Encloses taken (outlines ++ others) ↔ Encloses taken outlines ∧ Encloses taken others := by
  simp only [Encloses, allFit_append]
  exact ⟨fun both => ⟨fun inPlace => (both inPlace).1, fun inPlace => (both inPlace).2⟩,
    fun both inPlace => ⟨both.1 inPlace, both.2 inPlace⟩⟩

@[simp, grind =]
theorem encloses_reverse : Encloses taken outlines.reverse ↔ Encloses taken outlines := by
  induction outlines with
  | nil => exact Iff.rfl
  | cons outline outlines ih =>
      rw [List.reverse_cons, encloses_append, ih, and_comm, ← encloses_cons]

/-- No trees enclose no outlines. -/
theorem eq_nil_of_encloses_nil (encloses : Encloses [] outlines) : outlines = [] := by
  cases outlines with
  | nil => rfl
  | cons outline outlines => exact absurd (encloses trivial).1.lt (Nat.lt_irrefl 0)

@[grind →]
theorem Encloses.ne_nil (encloses : Encloses taken [outline]) : taken ≠ [] := by
  rintro rfl
  cases eq_nil_of_encloses_nil encloses

/-- What fits into the first trees fits into all. -/
theorem Encloses.append_right (encloses : Encloses front outlines) :
    Encloses (front ++ more) outlines := by
  rcases List.eq_nil_or_concat' front with rfl | some
  · rw [eq_nil_of_encloses_nil encloses]
    exact fun _ => trivial
  have some : front ≠ [] := by
    rcases some with ⟨front, tree, rfl⟩
    simp
  intro inPlace
  apply (encloses (TokenTree.allInPlace_append.mp inPlace).1).mono
  · rw [TokenTree.extent_append_first some]
  · by_cases none : more = []
    · rw [none, List.append_nil]
    · rw [TokenTree.extent_append_last front none]
      exact (TokenTree.extent_le inPlace some none).2.1

/-- What fits into the last trees fits into all. -/
theorem Encloses.append_left (encloses : Encloses more outlines) :
    Encloses (front ++ more) outlines := by
  by_cases none : more = []
  · rw [none] at encloses
    rw [eq_nil_of_encloses_nil encloses]
    exact fun _ => trivial
  intro inPlace
  apply (encloses (TokenTree.allInPlace_append.mp inPlace).2.1).mono
  · by_cases noFront : front = []
    · rw [noFront, List.nil_append]
    · rw [TokenTree.extent_append_first noFront]
      exact (TokenTree.extent_le inPlace noFront none).1
  · rw [TokenTree.extent_append_last front none]

@[grind ←]
theorem encloses_of_parts (encloses : Encloses front outlines ∨ Encloses more outlines) :
    Encloses (front ++ more) outlines :=
  encloses.elim Encloses.append_right Encloses.append_left

/-- What fits into the first trees of a group fits into the group. -/
theorem Encloses.in_group (encloses : Encloses inner outlines) (bracket : Option Bracket)
    (opening closing : Span) (more : List TokenTree) :
    Encloses [.group bracket opening closing (inner ++ more)] outlines := by
  by_cases none : inner = []
  · rw [none] at encloses
    rw [eq_nil_of_encloses_nil encloses]
    exact fun _ => trivial
  rintro ⟨⟨_, within, inPlace⟩, _⟩
  rcases TokenTree.exists_extent none with ⟨⟨first, firstIn, begins⟩, last, lastIn, ends, _⟩
  apply (encloses (TokenTree.allInPlace_append.mp inPlace).1).mono
  · rw [begins]
    exact (within first (List.mem_append_left _ firstIn)).1
  · rw [ends]
    exact (within last (List.mem_append_left _ lastIn)).2

theorem encloses_name (text : String) (span : Span) :
    Encloses [.leaf ⟨.word, text, span⟩] [.name span] :=
  fun inPlace => ⟨⟨Nat.le_refl _, inPlace.1.1, Nat.le_refl _⟩, trivial⟩

theorem encloses_document (some : taken ≠ []) (text : String) :
    Encloses taken [.document (TokenTree.extent taken) text] := by
  intro inPlace
  have between := TokenTree.turn_between inPlace some
  exact ⟨⟨Nat.le_refl _, Nat.lt_of_le_of_lt between.1 between.2, Nat.le_refl _⟩, trivial⟩

theorem encloses_ascription {pattern type : Outline} (ownFit : Encloses taken own)
    (patternFits : Encloses taken [pattern]) (typeFits : Encloses taken [type]) :
    Encloses taken [.ascription own pattern type] :=
  fun inPlace => ⟨⟨ownFit inPlace, (patternFits inPlace).1, (typeFits inPlace).1⟩, trivial⟩

/-! ## Elements in trees -/

@[grind ←]
theorem Carries.encloses (carries : Carries taken outline) : Encloses taken [outline] :=
  fun inPlace => ⟨(carries inPlace).fits, trivial⟩

@[grind →]
theorem Carries.ne_nil (carries : Carries taken outline) : taken ≠ [] :=
  carries.encloses.ne_nil

theorem Carries.append_right (carries : Carries front outline) :
    Carries (front ++ more) outline := by
  intro inPlace
  have some := carries.ne_nil
  have spans := carries (TokenTree.allInPlace_append.mp inPlace).1
  refine ⟨spans.isElement, (carries.encloses.append_right inPlace).1, ?_⟩
  by_cases none : more = []
  · rw [none, List.append_nil]
    exact spans.first_le
  · rw [TokenTree.turn_append front none]
    exact (spans.first_le.trans (TokenTree.extent_le inPlace some none).2.2).trans
      (TokenTree.turn_between (TokenTree.allInPlace_append.mp inPlace).2.1 none).1

theorem Carries.append_left (carries : Carries more outline) : Carries (front ++ more) outline := by
  intro inPlace
  have spans := carries (TokenTree.allInPlace_append.mp inPlace).2.1
  refine ⟨spans.isElement, (carries.encloses.append_left inPlace).1, ?_⟩
  rw [TokenTree.turn_append front carries.ne_nil]
  exact spans.first_le

@[grind ←]
theorem carries_of_parts (carries : Carries front outline ∨ Carries more outline) :
    Carries (front ++ more) outline :=
  carries.elim Carries.append_right Carries.append_left

/-- An element covers trees that enclose what it holds. -/
theorem carries_element (some : taken ≠ []) (covers : span = TokenTree.extent taken)
    (attributesFit : Encloses taken own) (fit : Encloses taken outlines) :
    Carries taken (.element form span own outlines) := by
  intro inPlace
  have between := TokenTree.turn_between inPlace some
  subst covers
  refine ⟨rfl, ⟨⟨Nat.le_refl _, ?_, Nat.le_refl _⟩, attributesFit inPlace, .inl (fit inPlace)⟩,
    between.1⟩
  exact Nat.lt_of_le_of_lt between.1 between.2

/-- An element begins with another one and ends with what was taken last. -/
theorem Carries.extend (carries : Carries front operand) (fit : Encloses more parts)
    (first : span.first = operand.span.first)
    (last : span.last = (TokenTree.extent (front ++ more)).last) :
    Carries (front ++ more) (.element form span [] (operand :: parts)) := by
  intro inPlace
  have spans := carries.append_right inPlace
  have between := spans.fits.between spans.isElement
  refine ⟨rfl, ⟨⟨?_, ?_, Nat.le_of_eq last⟩, trivial, .inl ⟨?_, ?_⟩⟩, ?_⟩
  · rw [first]
    exact between.low_le
  · rw [first, last]
    exact Nat.lt_of_lt_of_le between.lt between.le_high
  · rw [first, last]
    exact spans.fits.from_first spans.isElement
  · by_cases none : more = []
    · rw [none] at fit
      rw [eq_nil_of_encloses_nil fit]
      trivial
    · apply (fit (TokenTree.allInPlace_append.mp inPlace).2.1).mono
      · rw [first]
        exact (carries (TokenTree.allInPlace_append.mp inPlace).1).first_le.trans
          (TokenTree.extent_le inPlace carries.ne_nil none).2.2
      · rw [last, TokenTree.extent_append_last front none]
  · change span.first ≤ _
    rw [first]
    exact spans.first_le

/-- A name may stand for an element of its own. -/
theorem Encloses.element_of_name (encloses : Encloses taken [.name span]) :
    Encloses taken [.element form span [] [.name span]] := by
  intro inPlace
  have between : span.Between _ _ := (encloses inPlace).1
  exact ⟨⟨between, trivial, .inl ⟨⟨Nat.le_refl _, between.lt, Nat.le_refl _⟩, trivial⟩⟩, trivial⟩

/-- The children of an element that is no statement fit where it does. -/
theorem Encloses.children (encloses : Encloses taken [outline])
    (noStatement : outline.form? ≠ some (.statement .expression)) :
    Encloses taken outline.children :=
  fun inPlace => (encloses inPlace).1.children noStatement

/-! ## Attributes -/

/-- Behind a group something else begins. -/
theorem EndsWithGroup.last_le (ends : EndsWithGroup front) (some : more ≠ [])
    (inPlace : TokenTree.AllInPlace (front ++ more)) :
    (TokenTree.extent front).last ≤ (TokenTree.extent more).first := by
  rcases ends with ⟨before, group, rfl, isGroup⟩
  rcases (TokenTree.exists_extent some).1 with ⟨next, nextIn, begins⟩
  rw [TokenTree.extent_append_last before (by simp), begins]
  have before := (TokenTree.allInPlace_append.mp inPlace).2.2 group (by simp) next nextIn
  exact before.apart (.inl isGroup)

/-- Attributes stand before what begins behind them. -/
theorem Encloses.before (encloses : Encloses front own) (some : more ≠ [])
    (ends : front = [] ∨ EndsWithGroup front) (inPlace : TokenTree.AllInPlace (front ++ more)) :
    own = [] ∨ front ≠ [] ∧
      (TokenTree.extent front).first ≤ (TokenTree.extent more).first ∧
        AllFit own (TokenTree.extent front).first (TokenTree.extent more).first := by
  by_cases none : front = []
  · rw [none] at encloses
    exact .inl (eq_nil_of_encloses_nil encloses)
  · refine .inr ⟨none, (TokenTree.extent_le inPlace none some).1, ?_⟩
    apply (encloses (TokenTree.allInPlace_append.mp inPlace).1).mono (Nat.le_refl _)
    exact (ends.resolve_left none).last_le some inPlace

/-- An element that is made from another one and the attributes before it. -/
theorem Carries.begin_with {given : Outline} (carries : Carries more outline)
    (encloses : Encloses front own) (ends : front = [] ∨ EndsWithGroup front)
    (begins : front ≠ [] → start = (TokenTree.extent front).first)
    (nothing : own = [] → given = outline)
    (isElement : given.form?.isSome = outline.form?.isSome)
    (first_le : start ≤ outline.span.first → given.span.first ≤ outline.span.first)
    (fits : ∀ low high, outline.Fits low high → AllFit own start low → start ≤ low →
      given.Fits (if given.span.first == start then start else low) high) :
    Carries (front ++ more) given := by
  intro inPlace
  rcases encloses.before carries.ne_nil ends inPlace with none | ⟨some, start_le, fit⟩
  · rw [nothing none]
    exact carries.append_left inPlace
  rw [← begins some] at start_le fit
  have spans := carries (TokenTree.allInPlace_append.mp inPlace).2.1
  have whole : (TokenTree.extent (front ++ more)).first = start := by
    rw [TokenTree.extent_append_first some, begins some]
  refine ⟨isElement ▸ spans.isElement, ?_, ?_⟩
  · apply (fits _ _ spans.fits fit start_le).mono
    · rw [whole]
      split <;> omega
    · rw [TokenTree.extent_append_last front carries.ne_nil]
  · rw [TokenTree.turn_append front carries.ne_nil]
    exact (first_le (start_le.trans (spans.fits.between spans.isElement).low_le)).trans
      spans.first_le

/-- An element is given the attributes before it. -/
theorem Carries.attach (carries : Carries more outline) (encloses : Encloses front own)
    (ends : front = [] ∨ EndsWithGroup front)
    (begins : front ≠ [] → start = (TokenTree.extent front).first) :
    Carries (front ++ more) (outline.attach start own) := by
  apply carries.begin_with encloses ends begins
  · rintro rfl
    exact attach_nil start outline
  · exact isSome_form?_attach
  · exact attach_first_le outline start own
  · exact fun low high fits newFit start_le => fits.attach newFit start_le

/-- The first operand of an element is given the attributes before it. -/
theorem Carries.attachLeft (carries : Carries more outline) (encloses : Encloses front own)
    (ends : front = [] ∨ EndsWithGroup front)
    (begins : front ≠ [] → start = (TokenTree.extent front).first) :
    Carries (front ++ more) (outline.attachLeft start own) := by
  apply carries.begin_with encloses ends begins
  · rintro rfl
    exact attachLeft_nil start outline
  · exact isSome_form?_attachLeft
  · exact attachLeft_first_le outline start own
  · exact Fits.attachLeft outline

/-- An element that begins with another one, ends with what was taken last and holds the other one,
or what that holds. -/
theorem Carries.enclosing (carries : Carries taken outline)
    (first : span.first = outline.span.first) (last : span.last = (TokenTree.extent taken).last)
    (ownFit : ∀ high, outline.Fits outline.span.first high → AllFit own outline.span.first high)
    (fit : ∀ high, outline.Fits outline.span.first high → AllFit parts outline.span.first high) :
    Encloses taken [.element form span own parts] := by
  intro inPlace
  have spans := carries inPlace
  have between := spans.fits.between spans.isElement
  have begun := spans.fits.from_first spans.isElement
  refine ⟨⟨⟨?_, ?_, Nat.le_of_eq last⟩, ?_, .inl ?_⟩, trivial⟩
  · rw [first]
    exact between.low_le
  · rw [first, last]
    exact Nat.lt_of_lt_of_le between.lt between.le_high
  · rw [first, last]
    exact ownFit _ begun
  · rw [first, last]
    exact fit _ begun

end ProgramGraph.Grammar
