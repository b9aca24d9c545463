import Mathlib.Data.List.Basic
import ProgramGraph.Bytes.Utf8

/-!
# Texts and their bytes are the same

The bounds on first and second bytes leave each character exactly one written form.
So reading undoes writing, and bytes that can be read are the bytes of the text that
they stand for.

Both directions go character by character.  A character of one to four bytes is put
together from bytes within the bounds, and bytes within the bounds are those of the
character that they make.
-/

namespace ProgramGraph.Utf8

variable {first second third fourth : UInt8}

theorem between_iff {low high : Nat} {byte : UInt8} :
    between low high byte ↔ low ≤ byte.toNat ∧ byte.toNat ≤ high := by
  simp [between]

/-- Not every second byte may follow: three bytes neither stand for less than two do
nor for half of a pair, four bytes neither for less than three do nor for more than
the last character. -/
theorem canFollow_iff : canFollow first second ↔
    0x80 ≤ second.toNat ∧ second.toNat ≤ 0xBF ∧ (first.toNat = 0xE0 → 0xA0 ≤ second.toNat) ∧
      (first.toNat = 0xED → second.toNat ≤ 0x9F) ∧ (first.toNat = 0xF0 → 0x90 ≤ second.toNat) ∧
      (first.toNat = 0xF4 → second.toNat ≤ 0x8F) := by
  simp only [canFollow, isTail, beq_iff_eq, ← UInt8.toNat_inj, UInt8.reduceToNat]
  split_ifs <;> rw [between_iff] <;> omega

/-! ## Characters and the bytes that make them -/

/-- The number that bytes make is the number of the character that they make. -/
theorem toNat_join {mark : Nat} {tail : List UInt8}
    (valid : (tail.foldl (fun value byte => value * 64 + (byte.toNat - 0x80))
      (first.toNat - mark)).isValidChar) :
    (join mark first tail).toNat =
      tail.foldl (fun value byte => value * 64 + (byte.toNat - 0x80)) (first.toNat - mark) := by
  rw [join, Char.ofNat, dif_pos valid]
  rfl

theorem encodeChar_join_one (leads : between 0x00 0x7F first) :
    encodeChar (join 0 first []) = [first] := by
  rw [between_iff] at leads
  have value : (join 0 first []).toNat = first.toNat := by
    rw [toNat_join] <;> simp [Nat.isValidChar]
    omega
  simp only [encodeChar, value]
  rw [if_pos (by omega), UInt8.ofNat_toNat]

theorem encodeChar_join_two (leads : between 0xC2 0xDF first) (follows : isTail second) :
    encodeChar (join 0xC0 first [second]) = [first, second] := by
  rw [between_iff] at leads
  rw [isTail, between_iff] at follows
  have value : (join 0xC0 first [second]).toNat =
      (first.toNat - 0xC0) * 64 + (second.toNat - 0x80) := by
    rw [toNat_join] <;> simp [Nat.isValidChar]
    omega
  simp only [encodeChar, value]
  rw [if_neg (by omega), if_pos (by omega)]
  simp only [List.cons.injEq, ← UInt8.toNat_inj, UInt8.toNat_ofNat', and_true]
  omega

theorem encodeChar_join_three (leads : between 0xE0 0xEF first) (follows : canFollow first second)
    (ends : isTail third) :
    encodeChar (join 0xE0 first [second, third]) = [first, second, third] := by
  rw [between_iff] at leads
  rw [canFollow_iff] at follows
  rw [isTail, between_iff] at ends
  have value : (join 0xE0 first [second, third]).toNat =
      ((first.toNat - 0xE0) * 64 + (second.toNat - 0x80)) * 64 + (third.toNat - 0x80) := by
    rw [toNat_join] <;> simp [Nat.isValidChar]
    omega
  simp only [encodeChar, value]
  rw [if_neg (by omega), if_neg (by omega), if_pos (by omega)]
  simp only [List.cons.injEq, ← UInt8.toNat_inj, UInt8.toNat_ofNat', and_true]
  omega

theorem encodeChar_join_four (leads : between 0xF0 0xF4 first) (follows : canFollow first second)
    (continues : isTail third) (ends : isTail fourth) :
    encodeChar (join 0xF0 first [second, third, fourth]) = [first, second, third, fourth] := by
  rw [between_iff] at leads
  rw [canFollow_iff] at follows
  rw [isTail, between_iff] at continues ends
  have value : (join 0xF0 first [second, third, fourth]).toNat =
      (((first.toNat - 0xF0) * 64 + (second.toNat - 0x80)) * 64 + (third.toNat - 0x80)) * 64 +
        (fourth.toNat - 0x80) := by
    rw [toNat_join] <;> simp [Nat.isValidChar]
    omega
  simp only [encodeChar, value]
  rw [if_neg (by omega), if_neg (by omega), if_neg (by omega)]
  simp only [List.cons.injEq, ← UInt8.toNat_inj, UInt8.toNat_ofNat', and_true]
  omega

/-- Bytes within the bounds, and the character that they make. -/
inductive Makes : List UInt8 → Char → Prop
  | one {first : UInt8} (leads : between 0x00 0x7F first) : Makes [first] (join 0 first [])
  | two {first second : UInt8} (leads : between 0xC2 0xDF first) (follows : isTail second) :
      Makes [first, second] (join 0xC0 first [second])
  | three {first second third : UInt8} (leads : between 0xE0 0xEF first)
      (follows : canFollow first second) (ends : isTail third) :
      Makes [first, second, third] (join 0xE0 first [second, third])
  | four {first second third fourth : UInt8} (leads : between 0xF0 0xF4 first)
      (follows : canFollow first second) (continues : isTail third) (ends : isTail fourth) :
      Makes [first, second, third, fourth] (join 0xF0 first [second, third, fourth])

namespace Makes

variable {bytes : List UInt8} {c : Char}

theorem encodeChar_eq (makes : Makes bytes c) : encodeChar c = bytes := by
  cases makes with
  | one leads => exact encodeChar_join_one leads
  | two leads follows => exact encodeChar_join_two leads follows
  | three leads follows ends => exact encodeChar_join_three leads follows ends
  | four leads follows continues ends => exact encodeChar_join_four leads follows continues ends

/-- The bytes of a character are read as this character, whatever comes after. -/
theorem decodeFrom_append (makes : Makes bytes c) (index : Nat) (rest : List UInt8) :
    decodeFrom index (bytes ++ rest) = prepend c (decodeFrom (index + bytes.length) rest) := by
  cases makes with
  | @one first leads =>
      rw [List.singleton_append, decodeFrom.eq_def]
      simp [leads]
  | @two first second leads follows =>
      have bounds := between_iff.mp leads
      have notOne : ¬between 0x00 0x7F first := mt between_iff.mp (by omega)
      rw [List.cons_append, decodeFrom.eq_def]
      simp [notOne, leads, follows]
  | @three first second third leads follows ends =>
      have bounds := between_iff.mp leads
      have notOne : ¬between 0x00 0x7F first := mt between_iff.mp (by omega)
      have notTwo : ¬between 0xC2 0xDF first := mt between_iff.mp (by omega)
      rw [List.cons_append, decodeFrom.eq_def]
      simp [notOne, notTwo, leads, follows, ends]
  | @four first second third fourth leads follows continues ends =>
      have bounds := between_iff.mp leads
      have notOne : ¬between 0x00 0x7F first := mt between_iff.mp (by omega)
      have notTwo : ¬between 0xC2 0xDF first := mt between_iff.mp (by omega)
      have notThree : ¬between 0xE0 0xEF first := mt between_iff.mp (by omega)
      rw [List.cons_append, decodeFrom.eq_def]
      simp [notOne, notTwo, notThree, leads, follows, continues, ends]

end Makes

/-- The last six bits of a number make a byte that continues a character. -/
theorem isTail_ofNat (value : Nat) : isTail (UInt8.ofNat (0x80 + value % 64)) := by
  rw [isTail, between_iff, UInt8.toNat_ofNat']
  omega

/-- The bytes of a character are within the bounds and make it. -/
theorem makes_encodeChar (c : Char) : Makes (encodeChar c) c := by
  have valid : c.toNat < 0xD800 ∨ 0xDFFF < c.toNat ∧ c.toNat < 0x110000 := c.valid
  -- Bytes that make the number of `c` make `c`, as no other character has its number.
  have made {mark : Nat} {first : UInt8} {tail : List UInt8}
      (value : tail.foldl (fun value byte => value * 64 + (byte.toNat - 0x80))
        (first.toNat - mark) = c.toNat) : join mark first tail = c := by
    rw [join, value, Char.ofNat_toNat]
  simp only [encodeChar]
  split_ifs with one two three
  · have leads : between 0x00 0x7F (UInt8.ofNat c.toNat) := by
      rw [between_iff, UInt8.toNat_ofNat']
      omega
    have makes := Makes.one leads
    rwa [made (by simp; omega)] at makes
  · have leads : between 0xC2 0xDF (UInt8.ofNat (0xC0 + c.toNat / 64)) := by
      rw [between_iff, UInt8.toNat_ofNat']
      omega
    have makes := Makes.two leads (isTail_ofNat (c.toNat / 1))
    rwa [made (by simp; omega)] at makes
  · have leads : between 0xE0 0xEF (UInt8.ofNat (0xE0 + c.toNat / 4096)) := by
      rw [between_iff, UInt8.toNat_ofNat']
      omega
    have follows : canFollow (UInt8.ofNat (0xE0 + c.toNat / 4096))
        (UInt8.ofNat (0x80 + c.toNat / 64 % 64)) := by
      rw [canFollow_iff, UInt8.toNat_ofNat', UInt8.toNat_ofNat']
      omega
    have makes := Makes.three leads follows (isTail_ofNat (c.toNat / 1))
    rwa [made (by simp; omega)] at makes
  · have leads : between 0xF0 0xF4 (UInt8.ofNat (0xF0 + c.toNat / 262144)) := by
      rw [between_iff, UInt8.toNat_ofNat']
      omega
    have follows : canFollow (UInt8.ofNat (0xF0 + c.toNat / 262144))
        (UInt8.ofNat (0x80 + c.toNat / 4096 % 64)) := by
      rw [canFollow_iff, UInt8.toNat_ofNat', UInt8.toNat_ofNat']
      omega
    have makes := Makes.four leads follows (isTail_ofNat (c.toNat / 64))
      (isTail_ofNat (c.toNat / 1))
    rwa [made (by simp; omega)] at makes

/-! ## Texts -/

@[simp]
theorem encode_append (front back : List Char) :
    encode (front ++ back) = encode front ++ encode back :=
  List.flatMap_append

/-- Every character takes a byte. -/
theorem length_le_length_encode (text : List Char) : text.length ≤ (encode text).length := by
  have nonempty (c : Char) : encodeChar c ≠ [] := by
    simp only [encodeChar]
    split_ifs <;> exact List.cons_ne_nil _ _
  induction text with
  | nil => exact Nat.zero_le _
  | cons c text ih =>
      have := List.length_pos_iff.mpr (nonempty c)
      rw [encode_cons, List.length_append, List.length_cons]
      omega

theorem prepend_eq_ok_iff {c : Char} {rest : Except Fault (List Char)} {text : List Char} :
    prepend c rest = .ok text ↔ ∃ after, rest = .ok after ∧ text = c :: after := by
  cases rest <;> simp [prepend, Except.map, eq_comm]

theorem decodeFrom_encode (index : Nat) (text : List Char) :
    decodeFrom index (encode text) = .ok text := by
  induction text generalizing index with
  | nil => rfl
  | cons c text ih =>
      rw [encode_cons, (makes_encodeChar c).decodeFrom_append, ih]
      rfl

/-- Where a character is read, its bytes stand before those of the text after it. -/
private theorem encode_of_prepend {c : Char} {index : Nat} {bytes rest : List UInt8}
    {text : List Char} (makes : Makes bytes c)
    (after : ∀ {text}, decodeFrom index rest = .ok text → encode text = rest)
    (read : prepend c (decodeFrom index rest) = .ok text) : encode text = bytes ++ rest := by
  obtain ⟨tail, readTail, rfl⟩ := prepend_eq_ok_iff.mp read
  rw [encode_cons, makes.encodeChar_eq, after readTail]

theorem encode_of_decodeFrom {index : Nat} {bytes : List UInt8} {text : List Char}
    (read : decodeFrom index bytes = .ok text) : encode text = bytes := by
  fun_induction decodeFrom index bytes generalizing text with
  | case1 =>
      cases read
      rfl
  | case2 index first rest leads ih => exact encode_of_prepend (.one leads) ih read
  | case5 index first notOne leads second rest follows ih =>
      rw [Bool.not_eq_true, Bool.not_eq_false'] at follows
      exact encode_of_prepend (.two leads follows) ih read
  | case10 index first notOne notTwo leads second follows third rest ends ih =>
      rw [Bool.not_eq_true, Bool.not_eq_false'] at follows ends
      exact encode_of_prepend (.three leads follows ends) ih read
  | case17 index first notOne notTwo notThree leads second follows third continues fourth rest
      ends ih =>
      rw [Bool.not_eq_true, Bool.not_eq_false'] at follows continues ends
      exact encode_of_prepend (.four leads follows continues ends) ih read
  -- In all other cases there is a fault.
  | _ => cases read

/-- Bytes are read as a text just when they are its bytes. -/
theorem decode_eq_ok_iff {bytes : List UInt8} {text : List Char} :
    decode bytes = .ok text ↔ bytes = encode text := by
  constructor
  · intro read
    exact (encode_of_decodeFrom read).symm
  · rintro rfl
    exact decodeFrom_encode 0 text

theorem textOf_eq_ok_iff {bytes : List UInt8} {text : String} :
    textOf bytes = .ok text ↔ bytes = bytesOf text := by
  rw [textOf, bytesOf, ← decode_eq_ok_iff]
  cases decode bytes with
  | error cause => simp [Except.map]
  | ok chars =>
      simp only [Except.map, Except.ok.injEq]
      constructor
      · rintro rfl
        exact String.toList_ofList.symm
      · rintro rfl
        exact String.ofList_toList

@[simp]
theorem textOf_bytesOf (text : String) : textOf (bytesOf text) = .ok text :=
  textOf_eq_ok_iff.mpr rfl

end ProgramGraph.Utf8
