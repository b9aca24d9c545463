import Mathlib.Data.List.Basic
import ProgramGraph.Binary.Word
import ProgramGraph.Proofs.Bytes.Utf8
import ProgramGraph.Proofs.Words

/-!
# What readers of bytes accept

A reader is *exact* for a way of writing if it accepts just the written form of an
element that fits, and answers with this element and the bytes after it.  A reader is
*steady* if bytes added at the end change nothing, except that it may no longer run
out of them.

The readers of numbers, texts and lists are both, and readers that are put together
from such readers are steady again.  An exact and steady reader cannot be deceived by
bytes that are cut short: wherever the cut is, it runs out of bytes.
-/

namespace ProgramGraph.Binary

variable {α β : Type} {bytes rest : List UInt8}

/-! ## Steps of reading -/

theorem run_pure_eq_ok_iff {element found : α} :
    (pure element : Reader α).run bytes = .ok (found, rest) ↔ found = element ∧ bytes = rest := by
  have answer : (pure element : Reader α).run bytes = .ok (element, bytes) := rfl
  simp [answer, eq_comm]

theorem run_bind (read : Reader α) (next : α → Reader β) :
    (read >>= next).run bytes =
      match read.run bytes with
      | .ok (element, rest) => (next element).run rest
      | .error cause => .error cause := by
  simp only [StateT.run, bind, StateT.bind, Except.bind]
  cases read bytes <;> rfl

theorem run_bind_eq_ok_iff {read : Reader α} {next : α → Reader β} {result : β × List UInt8} :
    (read >>= next).run bytes = .ok result ↔
      ∃ element rest, read.run bytes = .ok (element, rest) ∧
        (next element).run rest = .ok result := by
  rw [run_bind]
  cases read.run bytes with
  | error cause => simp
  | ok answer =>
      obtain ⟨element, rest⟩ := answer
      simp

/-! ## Steady readers -/

/-- More bytes at the end change nothing, except that the reader may no longer run out
of them. -/
structure Steady (read : Reader α) : Prop where
  ok : ∀ {bytes element rest} (more : List UInt8), read.run bytes = .ok (element, rest) →
    read.run (bytes ++ more) = .ok (element, rest ++ more)
  error : ∀ {bytes cause} (more : List UInt8), read.run bytes = .error cause →
    cause ≠ .ended → read.run (bytes ++ more) = .error cause

namespace Steady

theorem pure (element : α) : Steady (Pure.pure element : Reader α) where
  ok more read := by
    obtain ⟨rfl, rfl⟩ := run_pure_eq_ok_iff.mp read
    rfl
  error more read := by cases read

theorem throw (cause : Fault) : Steady (MonadExcept.throw cause : Reader α) where
  ok more read := by cases read
  error more read _ := by
    cases read
    rfl

theorem bind {read : Reader α} {next : α → Reader β} (first : Steady read)
    (second : ∀ element, Steady (next element)) : Steady (read >>= next) where
  ok more done := by
    obtain ⟨element, rest, here, there⟩ := run_bind_eq_ok_iff.mp done
    exact run_bind_eq_ok_iff.mpr ⟨element, _, first.ok more here, (second element).ok more there⟩
  error {bytes cause} more failed other := by
    rw [run_bind] at failed ⊢
    cases here : read.run bytes with
    | error earlier =>
        rw [here] at failed
        cases failed
        rw [first.error more here other]
    | ok answer =>
        obtain ⟨element, rest⟩ := answer
        rw [here] at failed
        rw [first.ok more here]
        exact (second element).error more failed other

end Steady

/-! ## Exact readers -/

/-- The reader accepts just the written forms of elements that fit. -/
structure Exact (read : Reader α) (write : α → List UInt8) (fits : α → Prop) : Prop where
  run_eq_ok_iff : ∀ {bytes element rest}, read.run bytes = .ok (element, rest) ↔
    fits element ∧ bytes = write element ++ rest

/-- Bytes that are cut short are read to their end and no further. -/
theorem Exact.run_of_prefix {read : Reader α} {write : α → List UInt8} {fits : α → Prop}
    (exact : Exact read write fits) (steady : Steady read) {element : α} {front : List UInt8}
    (fit : fits element) (cut : front <+: write element) (short : front ≠ write element) :
    read.run front = .error .ended := by
  obtain ⟨more, whole⟩ := cut
  have done : read.run (front ++ more) = .ok (element, []) :=
    exact.run_eq_ok_iff.mpr ⟨fit, by rw [whole, List.append_nil]⟩
  cases answer : read.run front with
  | ok found =>
      -- The same answer would come for all the bytes, with the missing ones left over.
      obtain ⟨other, rest⟩ := found
      have again := steady.ok more answer
      rw [done] at again
      have nothing : rest ++ more = [] := (congrArg Prod.snd (Except.ok.inj again)).symm
      rw [(List.append_eq_nil_iff.mp nothing).2, List.append_nil] at whole
      exact absurd whole short
  | error cause =>
      by_cases ended : cause = .ended
      · rw [ended]
      · have again := steady.error more answer ended
        rw [done] at again
        cases again

/-! ## Numbers -/

theorem readByte_run_eq_ok_iff {byte : UInt8} :
    readByte.run bytes = .ok (byte, rest) ↔ bytes = byte :: rest := by
  cases bytes with
  | nil =>
      have ended : readByte.run [] = .error .ended := rfl
      simp [ended]
  | cons first others =>
      have taken : readByte.run (first :: others) = .ok (first, others) := rfl
      simp [taken]

theorem steady_readByte : Steady readByte where
  ok more read := by
    rw [readByte_run_eq_ok_iff.mp read]
    rfl
  error {bytes cause} more failed other := by
    cases bytes with
    | nil =>
        cases failed
        exact absurd rfl other
    | cons byte bytes => cases failed

/-- Digits in base 256 stand for one number, which is less than the first one that
needs more digits. -/
theorem exact_readNumber (count : Nat) :
    Exact (readNumber count) (writeNumber count) (· < Nat.pow 256 count) := by
  constructor
  induction count with
  | zero =>
      intro bytes value rest
      rw [readNumber, run_pure_eq_ok_iff, writeNumber, List.nil_append]
      exact and_congr_left fun _ => Nat.lt_one_iff.symm
  | succ count ih =>
      intro bytes value rest
      have wider : Nat.pow 256 (count + 1) = Nat.pow 256 count * 256 := rfl
      simp only [readNumber, run_bind_eq_ok_iff, readByte_run_eq_ok_iff, run_pure_eq_ok_iff, ih,
        writeNumber, List.cons_append, wider]
      constructor
      · rintro ⟨byte, _, rfl, high, _, ⟨small, rfl⟩, rfl, rfl⟩
        have bound : byte.toNat < 256 := byte.toNat_lt
        have first : (byte.toNat + 256 * high) % 256 = byte.toNat := by omega
        have others : (byte.toNat + 256 * high) / 256 = high := by omega
        rw [first, others, UInt8.ofNat_toNat]
        exact ⟨by omega, rfl⟩
      · rintro ⟨small, rfl⟩
        refine ⟨_, _, rfl, value / 256, _, ⟨by omega, rfl⟩, ?_, rfl⟩
        rw [UInt8.toNat_ofNat']
        omega

theorem steady_readNumber (count : Nat) : Steady (readNumber count) := by
  induction count with
  | zero => exact .pure 0
  | succ count ih => exact steady_readByte.bind fun byte => ih.bind fun high => .pure _

theorem exact_readLong : Exact readLong writeLong (· < wordBound) :=
  exact_readNumber 8

theorem steady_readLong : Steady readLong :=
  steady_readNumber 8

/-! ## Texts -/

theorem readBytes_run (count : Nat) (bytes : List UInt8) :
    (readBytes count).run bytes =
      if bytes.length < count then .error .ended
      else .ok (bytes.take count, bytes.drop count) := by
  rw [readBytes, run_bind]
  change StateT.run (ite (bytes.length < count) _ _) bytes = _
  split <;> rfl

theorem exact_readBytes (count : Nat) : Exact (readBytes count) id (·.length = count) where
  run_eq_ok_iff {bytes found rest} := by
    rw [readBytes_run]
    split
    · next short =>
      simp only [reduceCtorEq, false_iff]
      rintro ⟨rfl, rfl⟩
      rw [List.length_append, id] at short
      omega
    · next long =>
      simp only [Except.ok.injEq, Prod.mk.injEq]
      constructor
      · rintro ⟨rfl, rfl⟩
        exact ⟨List.length_take_of_le (Nat.le_of_not_lt long), (List.take_append_drop _ _).symm⟩
      · rintro ⟨rfl, rfl⟩
        exact ⟨List.take_left, List.drop_left⟩

theorem steady_readBytes (count : Nat) : Steady (readBytes count) where
  ok more read := by
    rw [(exact_readBytes count).run_eq_ok_iff] at read ⊢
    obtain ⟨counted, rfl⟩ := read
    exact ⟨counted, List.append_assoc _ _ _⟩
  error more failed other := by
    rw [readBytes_run] at failed
    split at failed
    · cases failed
      exact absurd rfl other
    · cases failed

theorem exact_readText :
    Exact readText writeText fun text => (Utf8.bytesOf text).length < wordBound where
  run_eq_ok_iff {bytes text rest} := by
    simp only [readText, run_bind_eq_ok_iff, (exact_readBytes _).run_eq_ok_iff,
      exact_readLong.run_eq_ok_iff, id]
    constructor
    · rintro ⟨_, _, ⟨small, rfl⟩, found, _, ⟨rfl, rfl⟩, done⟩
      cases read : Utf8.textOf found with
      | error cause =>
          rw [read] at done
          cases done
      | ok text =>
          rw [read] at done
          cases done
          cases Utf8.textOf_eq_ok_iff.mp read
          exact ⟨small, (List.append_assoc _ _ _).symm⟩
    · rintro ⟨small, rfl⟩
      refine ⟨_, _, ⟨small, List.append_assoc _ _ _⟩, _, _, ⟨rfl, rfl⟩, ?_⟩
      rw [Utf8.textOf_bytesOf]
      rfl

theorem steady_readText : Steady readText := by
  refine steady_readLong.bind fun count => (steady_readBytes count).bind fun found => ?_
  cases Utf8.textOf found with
  | error cause => exact .throw _
  | ok text => exact .pure text

/-! ## Lists -/

section Lists

variable {read : Reader α} {write : α → List UInt8} {fits : α → Prop}

theorem exact_readElements (exact : Exact read write fits) (count : Nat) :
    Exact (readElements read count) (List.flatMap write) fun elements =>
      elements.length = count ∧ ∀ element ∈ elements, fits element := by
  constructor
  induction count with
  | zero =>
      intro bytes elements rest
      rw [readElements, run_pure_eq_ok_iff, List.length_eq_zero_iff]
      constructor
      · rintro ⟨rfl, rfl⟩
        exact ⟨⟨rfl, by simp⟩, rfl⟩
      · rintro ⟨⟨rfl, -⟩, rfl⟩
        exact ⟨rfl, rfl⟩
  | succ count ih =>
      intro bytes elements rest
      simp only [readElements, run_bind_eq_ok_iff, run_pure_eq_ok_iff, exact.run_eq_ok_iff, ih]
      constructor
      · rintro ⟨first, _, ⟨fit, rfl⟩, others, _, ⟨⟨rfl, fits⟩, rfl⟩, rfl, rfl⟩
        refine ⟨⟨rfl, List.forall_mem_cons.mpr ⟨fit, fits⟩⟩, ?_⟩
        rw [List.flatMap_cons, List.append_assoc]
      · rintro ⟨⟨counted, fits⟩, rfl⟩
        obtain ⟨first, others, rfl⟩ := List.exists_cons_of_length_eq_add_one counted
        obtain ⟨fit, fits⟩ := List.forall_mem_cons.mp fits
        refine ⟨first, _, ⟨fit, ?_⟩, others, _, ⟨⟨Nat.succ.inj counted, fits⟩, rfl⟩, rfl, rfl⟩
        rw [List.flatMap_cons, List.append_assoc]

theorem exact_readList (exact : Exact read write fits) :
    Exact (readList read) (writeList write) fun elements =>
      elements.length < wordBound ∧ ∀ element ∈ elements, fits element where
  run_eq_ok_iff {bytes elements rest} := by
    simp only [readList, run_bind_eq_ok_iff, exact_readLong.run_eq_ok_iff,
      (exact_readElements exact _).run_eq_ok_iff]
    constructor
    · rintro ⟨_, _, ⟨small, rfl⟩, ⟨rfl, fits⟩, rfl⟩
      exact ⟨⟨small, fits⟩, (List.append_assoc _ _ _).symm⟩
    · rintro ⟨⟨small, fits⟩, rfl⟩
      exact ⟨_, _, ⟨small, List.append_assoc _ _ _⟩, ⟨rfl, fits⟩, rfl⟩

theorem steady_readElements (steady : Steady read) (count : Nat) :
    Steady (readElements read count) := by
  induction count with
  | zero => exact .pure []
  | succ count ih => exact steady.bind fun first => ih.bind fun others => .pure _

theorem steady_readList (steady : Steady read) : Steady (readList read) :=
  steady_readLong.bind fun count => steady_readElements steady count

end Lists

end ProgramGraph.Binary
