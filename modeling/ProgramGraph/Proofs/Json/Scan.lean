import Mathlib.Data.List.Basic
import ProgramGraph.Json.Scan
import ProgramGraph.Proofs.Bytes.Utf8
import ProgramGraph.Proofs.Decimal

/-!
# Strings and numbers are read as they were written

A written string is read character by character: whatever the character, its written
form brings the reader from plain state to plain state with the bytes of the character
added.  A written number is read digit by digit and never leaves 64 bits on the way,
because the value only grows.
-/

namespace ProgramGraph.Json

variable {α β : Type} {bytes rest : List UInt8}

/-! ## Bytes of characters -/

theorem encodeChar_ascii {c : Char} (ascii : c.toNat < 0x80) : Utf8.encodeChar c = [byte c] := by
  simp only [Utf8.encodeChar, if_pos ascii, byte]

theorem toNat_byte {c : Char} (ascii : c.toNat < 0x80) : (byte c).toNat = c.toNat := by
  simp only [byte, UInt8.toNat_ofNat']
  omega

theorem byte_inj {c d : Char} (cAscii : c.toNat < 0x80) (dAscii : d.toNat < 0x80) :
    byte c = byte d ↔ c = d := by
  rw [← UInt8.toNat_inj, toNat_byte cAscii, toNat_byte dAscii, Char.toNat_inj]

/-- The bytes of a character beyond ASCII are beyond ASCII. -/
theorem le_of_mem_encodeChar {c : Char} (beyond : 0x80 ≤ c.toNat) :
    ∀ next ∈ Utf8.encodeChar c, 0x80 ≤ next.toNat := by
  have valid : c.toNat.isValidChar := c.valid
  simp only [Nat.isValidChar] at valid
  simp only [Utf8.encodeChar, if_neg (Nat.not_lt.mpr beyond)]
  split_ifs <;> simp only [List.forall_mem_cons, List.not_mem_nil, false_imp_iff, implies_true,
    and_true, UInt8.toNat_ofNat'] <;> omega

/-! ## Strings -/

/-- Bytes beyond ASCII stand for themselves in a string. -/
theorem stringRest_beyond {done : List UInt8} (beyond : ∀ next ∈ bytes, 0x80 ≤ next.toNat) :
    stringRest .plain done (bytes ++ rest) = stringRest .plain (bytes.reverse ++ done) rest := by
  induction bytes generalizing done with
  | nil => rfl
  | cons next bytes inductionHypothesis =>
      rw [List.forall_mem_cons] at beyond
      have large := beyond.1
      have noQuote : next ≠ byte '"' := by
        rintro rfl
        exact absurd large (by decide)
      have noBackslash : next ≠ byte '\\' := by
        rintro rfl
        exact absurd large (by decide)
      have noControl : ¬next < 0x20 := by
        rw [UInt8.lt_iff_toNat_lt]
        exact Nat.not_lt.mpr (Nat.le_trans (by decide) large)
      simp only [List.cons_append, stringRest, beq_iff_eq, if_neg noQuote, if_neg noBackslash,
        if_neg noControl, inductionHypothesis beyond.2, List.reverse_cons, List.append_assoc,
        List.nil_append]

theorem hexValue?_hexDigit : ∀ value < 16, hexValue? (byte (hexDigit value)) = some value := by
  decide

theorem hexDigit_ascii : ∀ value < 16, (hexDigit value).toNat < 0x80 := by
  decide

/-- A control in a string is read from its number. -/
theorem stringRest_control {c : Char} {done : List UInt8} (control : c.toNat < 0x20) :
    stringRest .plain done (Utf8.encode
        ['\\', 'u', '0', '0', hexDigit (c.toNat / 16), hexDigit (c.toNat % 16)] ++ rest) =
      stringRest .plain (pushChar done c) rest := by
  have high : c.toNat / 16 < 16 := by omega
  have low : c.toNat % 16 < 16 := by omega
  have value : c.toNat / 16 * 16 + c.toNat % 16 = c.toNat := by omega
  have noTrail : isTrail c.toNat = false := by
    simp only [isTrail, Bool.and_eq_false_iff, decide_eq_false_iff_not]
    omega
  have noLead : isLead c.toNat = false := by
    simp only [isLead, Bool.and_eq_false_iff, decide_eq_false_iff_not]
    omega
  have begins : stringRest .plain done (Utf8.encode
        ['\\', 'u', '0', '0', hexDigit (c.toNat / 16), hexDigit (c.toNat % 16)] ++ rest) =
      stringRest (.digits 2 0 true none) done
        (byte (hexDigit (c.toNat / 16)) :: byte (hexDigit (c.toNat % 16)) :: rest) := by
    simp only [Utf8.encode_cons, encodeChar_ascii (hexDigit_ascii _ high),
      encodeChar_ascii (hexDigit_ascii _ low)]
    rfl
  rw [begins]
  simp [stringRest, hexValue?_hexDigit _ high, hexValue?_hexDigit _ low, value, noTrail, noLead,
    Char.ofNat_toNat]

/-- A character in a string is read as it was written. -/
theorem stringRest_writeChar (c : Char) (done : List UInt8) :
    stringRest .plain done (Utf8.encode (writeChar c) ++ rest) =
      stringRest .plain (pushChar done c) rest := by
  unfold writeChar
  split
  iterate 7 rfl
  next noQuote noBackslash _ _ _ _ _ =>
  split_ifs with control
  · exact stringRest_control control
  by_cases ascii : c.toNat < 0x80
  · have quote : byte c = byte '"' ↔ c = '"' := byte_inj ascii (by decide)
    have backslash : byte c = byte '\\' ↔ c = '\\' := byte_inj ascii (by decide)
    have noControl : ¬byte c < 0x20 := by
      rw [UInt8.lt_iff_toNat_lt, toNat_byte ascii]
      exact control
    simp only [Utf8.encode_cons, Utf8.encode_nil, encodeChar_ascii ascii, List.singleton_append,
      List.append_nil, stringRest, beq_iff_eq, quote, backslash, if_neg noQuote,
      if_neg noBackslash, if_neg noControl, pushChar, List.reverse_singleton]
  · simpa [pushChar] using stringRest_beyond (le_of_mem_encodeChar (Nat.le_of_not_lt ascii))

/-- A string is read as it was written, up to its closing quote. -/
theorem stringRest_written (text : List Char) (done : List UInt8) :
    stringRest .plain done (Utf8.encode (text.flatMap writeChar) ++ byte '"' :: rest) =
      .ok (done.reverse ++ Utf8.encode text, rest) := by
  induction text generalizing done with
  | nil => simp [stringRest]
  | cons c text inductionHypothesis =>
      rw [List.flatMap_cons, Utf8.encode_append, List.append_assoc, stringRest_writeChar,
        inductionHypothesis]
      simp [pushChar]

/-! ## Steps of reading -/

namespace Reader

@[simp]
theorem ok_bind (element : α) (next : α → Except Fault β) :
    (Except.ok element >>= next) = next element :=
  rfl

@[simp]
theorem pure_eq_ok (element : α) : (pure element : Except Fault α) = .ok element :=
  rfl

theorem run_bind_of_ok {read : Reader α} {next : α → Reader β} {element : α}
    (run : read.run bytes = .ok (element, rest)) :
    (read >>= next).run bytes = (next element).run rest := by
  rw [StateT.run_bind, run, ok_bind]

theorem run_get : (get : Reader (List UInt8)).run bytes = .ok (bytes, bytes) :=
  rfl

@[simp]
theorem run_next? : next?.run bytes = .ok (bytes.head?, bytes) :=
  rfl

@[simp]
theorem run_skip (next : UInt8) : skip.run (next :: rest) = .ok ((), rest) :=
  rfl

@[simp]
theorem run_isNext (chars : List Char) :
    (isNext chars).run bytes =
      .ok (bytes.head?.any fun next => chars.any fun c => next == byte c, bytes) :=
  rfl

@[simp]
theorem run_digits (value : Nat) :
    (digits value).run bytes = .ok (digitsRest value 0 bytes) :=
  rfl

/-- A text is read as it was written. -/
theorem run_string (text : String) :
    string.run (Utf8.encode (writeString text) ++ rest) = .ok (text, rest) := by
  have quoted : Utf8.encode (writeString text) ++ rest =
      byte '"' :: (Utf8.encode (text.toList.flatMap writeChar) ++ byte '"' :: rest) := by
    simp [writeString, show Utf8.encodeChar '"' = [byte '"'] from rfl]
  have inner : stringRest .plain [] (Utf8.encode (text.toList.flatMap writeChar) ++
      byte '"' :: rest) = .ok (Utf8.bytesOf text, rest) :=
    stringRest_written text.toList []
  simp [string, quoted, inner]

/-! ## Numbers -/

end Reader

/-- Nothing comes next that could go on with a number. -/
def Ends (rest : List UInt8) : Prop :=
  ∀ next ∈ rest.head?, isDigit next = false ∧ next ∉ ['.', 'e', 'E'].map byte

theorem toNat_lt_of_isDigit {c : Char} (digit : c.isDigit) : c.toNat < 0x80 :=
  Nat.lt_of_le_of_lt (Char.isDigit_iff_toNat.mp digit).2 (by decide)

theorem isDigit_byte {c : Char} (digit : c.isDigit) : isDigit (byte c) := by
  rw [isDigit, Bool.and_eq_true, decide_eq_true_iff, decide_eq_true_iff, UInt8.le_iff_toNat_le,
    UInt8.le_iff_toNat_le, toNat_byte (toNat_lt_of_isDigit digit)]
  exact Char.isDigit_iff_toNat.mp digit

theorem le_ofDigitChars (digits : List Char) (value : Nat) :
    value ≤ Nat.ofDigitChars 10 digits value := by
  rw [Nat.ofDigitChars_eq_ofDigitChars_zero]
  exact Nat.le_add_right_of_le (Nat.le_mul_of_pos_left value (Nat.pow_pos (by decide)))

/-- The digits of a number that fits 64 bits are read in full. -/
theorem digitsRest_written {digits : List Char} (value count : Nat)
    (areDigits : ∀ c ∈ digits, c.isDigit) (ends : Ends rest)
    (fits : Nat.ofDigitChars 10 digits value ≤ wordMax) :
    digitsRest value count (Utf8.encode digits ++ rest) =
      ((Nat.ofDigitChars 10 digits value, count + digits.length, false), rest) := by
  induction digits generalizing value count with
  | nil =>
      cases rest with
      | nil => rfl
      | cons next rest =>
          have noDigit : isDigit next = false := (ends next rfl).1
          simp [digitsRest, noDigit]
  | cons c digits inductionHypothesis =>
      rw [List.forall_mem_cons] at areDigits
      have ascii := toNat_lt_of_isDigit areDigits.1
      rw [Nat.ofDigitChars_cons] at fits ⊢
      have longer : value * 10 + digitValue (byte c) = 10 * value + (c.toNat - '0'.toNat) := by
        rw [digitValue, toNat_byte ascii, Nat.mul_comm]
      have short : ¬wordMax < 10 * value + (c.toNat - '0'.toNat) :=
        Nat.not_lt.mpr (Nat.le_trans (le_ofDigitChars _ _) fits)
      simp only [Utf8.encode_cons, encodeChar_ascii ascii, List.cons_append, List.nil_append,
        digitsRest, isDigit_byte areDigits.1, if_pos, longer, if_neg short,
        inductionHypothesis _ _ areDigits.2 fits, List.length_cons]
      rw [Nat.add_right_comm, Nat.add_assoc count]

/-- A number is written with a digit first, which is no zero unless the number is. -/
theorem encode_repr (value : Nat) :
    ∃ next more, Utf8.encode value.repr.toList = next :: more ∧ isDigit next ∧
      (next = byte '0' → value = 0) := by
  obtain ⟨c, more, digits, digit⟩ := Decimal.repr_eq_cons value
  have ascii := toNat_lt_of_isDigit digit
  refine ⟨byte c, Utf8.encode more, ?_, isDigit_byte digit, fun zero => ?_⟩
  · rw [digits, Utf8.encode_cons, encodeChar_ascii ascii, List.singleton_append]
  · rw [byte_inj ascii (by decide)] at zero
    exact Decimal.eq_zero_of_head?_repr (by rw [digits, zero, List.head?_cons])

namespace Reader

theorem run_afterWhole {value : Nat} (ends : Ends rest) :
    (afterWhole true value).run rest = .ok (.integer value, rest) := by
  cases rest with
  | nil => rfl
  | cons next rest =>
      have noMore := (ends next rfl).2
      simp only [List.map_cons, List.map_nil, List.mem_cons, List.not_mem_nil, or_false,
        not_or] at noMore
      simp [afterWhole, noMore]

theorem run_unsigned_zero (ends : Ends rest) :
    (unsigned true).run (byte '0' :: rest) = .ok (.integer 0, rest) := by
  have noDigit : rest.head?.any isDigit = false := by
    cases rest with
    | nil => rfl
    | cons next rest => exact (ends next rfl).1
  simp [unsigned, noDigit, run_afterWhole ends]

theorem run_unsigned {value : Nat} (fits : value ≤ wordMax) (ends : Ends rest) :
    (unsigned true).run (Utf8.encode value.repr.toList ++ rest) = .ok (.integer value, rest) := by
  obtain ⟨next, more, written, digit, leading⟩ := encode_repr value
  by_cases zero : next = byte '0'
  · rw [leading zero]
    exact run_unsigned_zero ends
  have areDigits : ∀ c ∈ value.repr.toList, c.isDigit := fun _ => Decimal.isDigit_of_mem_repr
  have inner := digitsRest_written 0 0 areDigits ends (by rwa [Decimal.ofDigitChars_repr])
  rw [Decimal.ofDigitChars_repr, written, List.cons_append] at inner
  rw [written, List.cons_append]
  simp [unsigned, zero, digit, inner, run_afterWhole ends]

/-- A number of 64 bits is read as it was written. -/
theorem run_number {value : Nat} (fits : value ≤ wordMax) (ends : Ends rest) :
    number.run (Utf8.encode value.repr.toList ++ rest) = .ok (.integer value, rest) := by
  have unsigned := run_unsigned fits ends
  obtain ⟨next, more, written, digit, -⟩ := encode_repr value
  have noSign : next ≠ byte '-' := by
    rintro rfl
    exact absurd digit (by decide)
  rw [written] at unsigned ⊢
  simp [number, noSign, ← unsigned]

end Reader

end ProgramGraph.Json
