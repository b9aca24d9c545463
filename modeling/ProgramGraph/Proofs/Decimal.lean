import Mathlib.Data.List.Basic

/-!
# Numbers as they are written

A number is written with at least one digit and nothing but digits, its digits have the
value of the number, and only zero is written with a zero first.
-/

namespace ProgramGraph.Decimal

variable {number : Nat}

theorem isDigit_of_mem_repr {c : Char} (member : c ∈ number.repr.toList) : c.isDigit := by
  rw [Nat.toList_repr] at member
  exact Nat.isDigit_of_mem_toDigits (by decide) (by decide) member

theorem not_mem_repr {c : Char} (other : c.isDigit = false) (number : Nat) :
    c ∉ number.repr.toList := by
  intro member
  rw [isDigit_of_mem_repr member] at other
  cases other

theorem repr_eq_cons (number : Nat) :
    ∃ digit more, number.repr.toList = digit :: more ∧ digit.isDigit := by
  cases digits : number.repr.toList with
  | nil => exact absurd (Nat.toList_repr.symm.trans digits) Nat.toDigits_ne_nil
  | cons digit more =>
      have member : digit ∈ number.repr.toList := digits ▸ List.mem_cons_self
      exact ⟨digit, more, rfl, isDigit_of_mem_repr member⟩

theorem ofDigitChars_repr (number : Nat) : Nat.ofDigitChars 10 number.repr.toList 0 = number := by
  rw [Nat.toList_repr, Nat.ofDigitChars_ten_toDigits]

/-- No number but zero is written with a leading zero. -/
theorem eq_zero_of_head?_repr (leading : number.repr.toList.head? = some '0') : number = 0 := by
  rw [Nat.toList_repr] at leading
  induction number using Nat.strongRecOn with
  | ind number inductionHypothesis =>
      rw [Nat.toDigits_eq_if (by decide)] at leading
      split at leading
      case isTrue => simpa using leading
      case isFalse large =>
        rw [List.head?_append_of_ne_nil _ Nat.toDigits_ne_nil] at leading
        have shorter := inductionHypothesis (number / 10) (by omega) leading
        omega

end ProgramGraph.Decimal
