import Mathlib.Data.List.Basic
import Mathlib.Data.List.Induction
import Mathlib.Data.List.Sort

/-!
# Lists without repetitions

Two ways of leaving repetitions out.  Dropping every later copy of an element keeps
the elements in the order in which they first occur; `FirstOccurrences` says so
without a reference to how it is done.  Sorting and dropping neighbours that are
equal gives the elements in ascending order.
-/

namespace ProgramGraph

variable {α : Type} [DecidableEq α]

/-- The list `kept` holds the elements of `all` once each, ordered by their first
place in `all`. -/
structure FirstOccurrences (all kept : List α) : Prop where
  nodup : kept.Nodup
  mem_iff : ∀ a, a ∈ kept ↔ a ∈ all
  ordered : kept.Pairwise fun a b => all.idxOf a < all.idxOf b

/-! ## Dropping later copies -/

theorem eraseDups_append_singleton (earlier : List α) (a : α) :
    (earlier ++ [a]).eraseDups = earlier.eraseDups ++ if a ∈ earlier then [] else [a] := by
  rw [List.eraseDups_append]
  by_cases repeated : a ∈ earlier <;>
    simp [List.removeAll, repeated, List.eraseDups_cons]

/-- An element that came before may be left out. -/
theorem eraseDups_append_cons {earlier : List α} {a : α} (repeated : a ∈ earlier)
    (later : List α) : (earlier ++ a :: later).eraseDups = (earlier ++ later).eraseDups := by
  rw [List.eraseDups_append, List.eraseDups_append, List.removeAll, List.removeAll,
    List.filter_cons_of_neg (by simpa using repeated)]

theorem firstOccurrences_eraseDups (all : List α) : FirstOccurrences all all.eraseDups := by
  induction all using List.reverseRecOn with
  | nil => exact ⟨List.nodup_nil, fun _ => Iff.rfl, List.Pairwise.nil⟩
  | append_singleton earlier a ih =>
      rw [eraseDups_append_singleton]
      have unmoved : ∀ {b}, b ∈ earlier.eraseDups →
          (earlier ++ [a]).idxOf b = earlier.idxOf b :=
        fun member => List.idxOf_append_of_mem ((ih.mem_iff _).mp member)
      have ordered : earlier.eraseDups.Pairwise fun b c =>
          (earlier ++ [a]).idxOf b < (earlier ++ [a]).idxOf c := by
        refine ih.ordered.imp_of_mem fun first second less => ?_
        rwa [unmoved first, unmoved second]
      by_cases repeated : a ∈ earlier
      · rw [if_pos repeated, List.append_nil]
        refine ⟨ih.nodup, ?_, ordered⟩
        intro b
        rw [ih.mem_iff, List.mem_append, List.mem_singleton]
        constructor
        · exact Or.inl
        · rintro (member | rfl)
          · exact member
          · exact repeated
      · rw [if_neg repeated]
        have fresh : a ∉ earlier.eraseDups := mt (ih.mem_iff a).mp repeated
        constructor
        · rw [List.nodup_append]
          refine ⟨ih.nodup, List.nodup_singleton a, ?_⟩
          rintro b member c last rfl
          exact fresh (List.mem_singleton.mp last ▸ member)
        · intro b
          rw [List.mem_append, List.mem_append, ih.mem_iff]
        · rw [List.pairwise_append]
          refine ⟨ordered, List.pairwise_singleton _ a, ?_⟩
          intro b member c last
          have place := List.idxOf_lt_length_of_mem ((ih.mem_iff b).mp member)
          rw [List.mem_singleton.mp last, unmoved member,
            List.idxOf_append_of_notMem repeated]
          omega

/-- It does not matter whether elements are left out before copies are or after. -/
theorem eraseDups_filter (all : List α) (p : α → Bool) :
    (all.filter p).eraseDups = all.eraseDups.filter p := by
  induction all using List.reverseRecOn with
  | nil => rfl
  | append_singleton earlier a ih =>
      rw [eraseDups_append_singleton, List.filter_append, List.filter_append, ← ih]
      by_cases kept : p a
      · rw [List.filter_singleton, kept, cond_true, eraseDups_append_singleton]
        by_cases repeated : a ∈ earlier <;> simp [repeated, kept]
      · by_cases repeated : a ∈ earlier <;> simp [repeated, kept]

/-- In whatever order a list stands, the same elements are left. -/
theorem perm_eraseDups {all others : List α} (perm : all.Perm others) :
    all.eraseDups.Perm others.eraseDups := by
  have first := firstOccurrences_eraseDups all
  have second := firstOccurrences_eraseDups others
  apply (List.perm_ext_iff_of_nodup first.nodup second.nodup).mpr
  intro a
  rw [first.mem_iff, second.mem_iff, perm.mem_iff]

/-- What is found first is found at a first occurrence. -/
theorem find?_eraseDups (all : List α) (p : α → Bool) :
    all.eraseDups.find? p = all.find? p := by
  induction all using List.reverseRecOn with
  | nil => rfl
  | append_singleton earlier a ih =>
      rw [eraseDups_append_singleton, List.find?_append, List.find?_append, ih]
      by_cases repeated : a ∈ earlier
      · rw [if_pos repeated]
        cases found : earlier.find? p with
        | some b => rfl
        | none =>
            have nothing := List.find?_eq_none.mp found a repeated
            simp [nothing]
      · rw [if_neg repeated]

/-! ## Dropping equal neighbours -/

omit [DecidableEq α] in
private theorem eraseRepsBy_loop_eq (r : α → α → Bool) (a : α) (rest done : List α) :
    List.eraseRepsBy.loop r a rest done =
      done.reverse ++ List.eraseRepsBy.loop r a rest [] := by
  induction rest generalizing a done with
  | nil => simp [List.eraseRepsBy.loop]
  | cons b rest ih =>
      simp only [List.eraseRepsBy.loop]
      split
      · exact ih a done
      · rw [ih b (a :: done), ih b [a]]
        simp

theorem eraseReps_cons_cons (a b : α) (rest : List α) :
    (a :: b :: rest).eraseReps =
      if a = b then (a :: rest).eraseReps else a :: (b :: rest).eraseReps := by
  simp only [List.eraseReps, List.eraseRepsBy, List.eraseRepsBy.loop]
  by_cases same : a = b
  · simp [same]
  · simp only [same, beq_iff_eq.not.mpr same, if_false]
    exact eraseRepsBy_loop_eq _ b rest [a]

theorem mem_eraseReps_cons (a c : α) (rest : List α) :
    c ∈ (a :: rest).eraseReps ↔ c ∈ a :: rest := by
  induction rest generalizing a with
  | nil => exact Iff.rfl
  | cons b rest ih =>
      rw [eraseReps_cons_cons]
      by_cases same : a = b
      · subst same
        rw [if_pos rfl, ih a]
        simp
      · rw [if_neg same, List.mem_cons, ih b, List.mem_cons (l := b :: rest)]

theorem mem_eraseReps (all : List α) (c : α) : c ∈ all.eraseReps ↔ c ∈ all := by
  cases all with
  | nil => exact Iff.rfl
  | cons a rest => exact mem_eraseReps_cons a c rest

theorem eraseReps_cons_ascend (a : Nat) (rest : List Nat)
    (ascend : (a :: rest).Pairwise (· ≤ ·)) : (a :: rest).eraseReps.Pairwise (· < ·) := by
  induction rest generalizing a with
  | nil => exact List.pairwise_singleton _ a
  | cons b rest ih =>
      obtain ⟨least, ascend⟩ := List.pairwise_cons.mp ascend
      rw [eraseReps_cons_cons]
      by_cases same : a = b
      · subst same
        rw [if_pos rfl]
        exact ih a ascend
      · rw [if_neg same]
        refine List.pairwise_cons.mpr ⟨?_, ih b ascend⟩
        intro c member
        have less : a < b := Nat.lt_of_le_of_ne (least b List.mem_cons_self) same
        rcases List.mem_cons.mp ((mem_eraseReps_cons b c rest).mp member) with rfl | later
        · exact less
        · exact Nat.lt_of_lt_of_le less (List.rel_of_pairwise_cons ascend later)

/-- Sorting and dropping equal neighbours gives the only ascending list with the same
elements. -/
theorem eraseReps_mergeSort_eq {all ascending : List Nat}
    (ascend : ascending.Pairwise (· < ·)) (members : ∀ a, a ∈ all ↔ a ∈ ascending) :
    all.mergeSort.eraseReps = ascending := by
  have sorted : all.mergeSort.Pairwise (· ≤ ·) := List.pairwise_mergeSort' (· ≤ ·) all
  have distinct : all.mergeSort.eraseReps.Pairwise (· < ·) := by
    cases shown : all.mergeSort with
    | nil => exact List.Pairwise.nil
    | cons a rest => exact eraseReps_cons_ascend a rest (shown ▸ sorted)
  apply distinct.eq_of_mem_iff ascend
  intro a
  rw [mem_eraseReps, List.mem_mergeSort]
  exact members a

end ProgramGraph
