import ProgramGraph.Bytes.Utf8
import ProgramGraph.Json.Value

/-!
# Reading JSON bytes

The elementary readers take bytes off the front of a text: words, strings and
numbers.  A string is read byte by byte with a state that tells what an escape
still needs; its bytes have to stand for text at the end.  A number that is whole
and fits 64 bits is read exactly; any other one is read in double precision, by
scaling its leading digits.
-/

namespace ProgramGraph.Json

/-- A step of reading. -/
abbrev Reader := StateT (List UInt8) (Except Fault)

/-- The byte of an ASCII character. -/
def byte (c : Char) : UInt8 :=
  UInt8.ofNat c.toNat

/-- Whether a byte is a blank. -/
def isBlank (next : UInt8) : Bool :=
  next == byte ' ' || next == byte '\n' || next == byte '\t' || next == byte '\r'

/-- Whether a byte is a decimal digit. -/
def isDigit (next : UInt8) : Bool :=
  byte '0' ≤ next && next ≤ byte '9'

/-- The value of a decimal digit. -/
def digitValue (next : UInt8) : Nat :=
  next.toNat - '0'.toNat

namespace Reader

/-- Pass over blanks and answer with the byte after them. -/
def peek : Reader (Option UInt8) := do
  modify (·.dropWhile isBlank)
  return (← get).head?

/-- The next byte, blanks included. -/
def next? : Reader (Option UInt8) :=
  return (← get).head?

/-- Pass over one byte. -/
def skip : Reader Unit :=
  modify (·.drop 1)

/-- Whether the next byte is one of some characters. -/
def isNext (chars : List Char) : Reader Bool :=
  return (← next?).any fun next => chars.any fun c => next == byte c

/-- Pass over the letters of a word. -/
def word : List Char → Reader Unit
  | [] => return ()
  | c :: letters => do
      match ← next? with
      | none => throw (.ended .value)
      | some next =>
          skip
          if next == byte c then word letters else throw .expectedWord

end Reader

/-! ## Strings -/

/-- What is still needed within a string. -/
inductive StringState where
  /-- Nothing: the next byte stands for itself. -/
  | plain
  /-- The character after a backslash. -/
  | escape
  /-- Hexadecimal digits after the first `count`; `lead` is the first half of a pair
  of escapes. -/
  | digits (count value : Nat) (valid : Bool) (lead : Option Nat)
  /-- The backslash of the second half of a pair of escapes. -/
  | pair (lead : Nat)
  /-- The letter after that backslash. -/
  | pairLetter (lead : Nat)

/-- What a character after a backslash stands for. -/
def unescape? (next : UInt8) : Option Char :=
  if next == byte '"' then some '"'
  else if next == byte '\\' then some '\\'
  else if next == byte '/' then some '/'
  else if next == byte 'b' then some '\x08'
  else if next == byte 'f' then some '\x0c'
  else if next == byte 'n' then some '\n'
  else if next == byte 'r' then some '\r'
  else if next == byte 't' then some '\t'
  else none

/-- The value of a hexadecimal digit. -/
def hexValue? (next : UInt8) : Option Nat :=
  if isDigit next then some (digitValue next)
  else if byte 'a' ≤ next && next ≤ byte 'f' then some (next.toNat - 'a'.toNat + 10)
  else if byte 'A' ≤ next && next ≤ byte 'F' then some (next.toNat - 'A'.toNat + 10)
  else none

/-- Whether a value is the first half of a pair. -/
def isLead (value : Nat) : Bool :=
  0xD800 ≤ value && value ≤ 0xDBFF

/-- Whether a value is the second half of a pair. -/
def isTrail (value : Nat) : Bool :=
  0xDC00 ≤ value && value ≤ 0xDFFF

/-- The character that the two halves of a pair stand for. -/
def joinPair (lead trail : Nat) : Char :=
  Char.ofNat ((lead - 0xD800) * 0x400 + (trail - 0xDC00) + 0x10000)

/-- Put the bytes of a character on the bytes of a string, last one first. -/
def pushChar (done : List UInt8) (c : Char) : List UInt8 :=
  (Utf8.encodeChar c).reverse ++ done

/-- The bytes of a string after its opening quote, and the rest of the text. -/
def stringRest : StringState → List UInt8 → List UInt8 → Except Fault (List UInt8 × List UInt8)
  | _, _, [] => .error (.ended .string)
  | .plain, done, next :: rest =>
      if next == byte '"' then .ok (done.reverse, rest)
      else if next == byte '\\' then stringRest .escape done rest
      else if next < 0x20 then .error .controlCharacter
      else stringRest .plain (next :: done) rest
  | .escape, done, next :: rest =>
      match unescape? next with
      | some c => stringRest .plain (pushChar done c) rest
      | none =>
          if next == byte 'u' then stringRest (.digits 0 0 true none) done rest
          else .error .invalidEscape
  | .digits count value valid lead, done, next :: rest =>
      let digit := hexValue? next
      let value := value * 16 + digit.getD 0
      let valid := valid && digit.isSome
      if count < 3 then stringRest (.digits (count + 1) value valid lead) done rest
      else if !valid then .error .invalidEscape
      else
        match lead with
        | none =>
            if isTrail value then .error .loneSurrogate
            else if isLead value then stringRest (.pair value) done rest
            else stringRest .plain (pushChar done (Char.ofNat value)) rest
        | some lead =>
            if isTrail value then stringRest .plain (pushChar done (joinPair lead value)) rest
            else .error .loneSurrogate
  | .pair lead, done, next :: rest =>
      if next == byte '\\' then stringRest (.pairLetter lead) done rest
      else .error .unfinishedEscape
  | .pairLetter lead, done, next :: rest =>
      if next == byte 'u' then stringRest (.digits 0 0 true (some lead)) done rest
      else .error .unfinishedEscape

/-- The rest of a text after a string that is not looked at, given what is needed
within it.  Its escapes have to be well written, but may stand for no text. -/
def skipStringRest : StringState → List UInt8 → Except Fault (List UInt8)
  | _, [] => .error (.ended .string)
  | .escape, next :: rest =>
      if (unescape? next).isSome then skipStringRest .plain rest
      else if next == byte 'u' then skipStringRest (.digits 0 0 true none) rest
      else .error .invalidEscape
  | .digits count _ valid lead, next :: rest =>
      let valid := valid && (hexValue? next).isSome
      if count < 3 then skipStringRest (.digits (count + 1) 0 valid lead) rest
      else if valid then skipStringRest .plain rest
      else .error .invalidEscape
  | _, next :: rest =>
      if next == byte '"' then .ok rest
      else if next == byte '\\' then skipStringRest .escape rest
      else if next < 0x20 then .error .controlCharacter
      else skipStringRest .plain rest

namespace Reader

/-- Read a string from its opening quote on. -/
def string : Reader String := do
  skip
  let (bytes, rest) ← stringRest .plain [] (← get)
  set rest
  match Utf8.textOf bytes with
  | .ok text => return text
  | .error _ => throw .invalidCodePoint

/-- Pass over a string from its opening quote on. -/
def skipString : Reader Unit := do
  skip
  set (← skipStringRest .plain (← get))

end Reader

/-! ## Numbers -/

/-- The greatest number of 64 bits. -/
def wordMax : Nat :=
  Nat.pow 2 64 - 1

/-- Read digits after those of `value` as long as the number fits 64 bits; how many
were read, and whether another digit follows. -/
def digitsRest (value count : Nat) : List UInt8 → (Nat × Nat × Bool) × List UInt8
  | [] => ((value, count, false), [])
  | next :: rest =>
      if isDigit next then
        let longer := value * 10 + digitValue next
        if wordMax < longer then ((value, count, true), next :: rest)
        else digitsRest longer (count + 1) rest
      else
        ((value, count, false), next :: rest)

/-- Scale a number by a power of ten, in steps that double precision can hold. -/
def scale : Nat → Float → Int → Except Fault Float
  | 0, value, _ => .ok value
  | bound + 1, value, exponent =>
      if exponent.natAbs ≤ 308 then
        let power := Float.ofScientific 1 false exponent.natAbs
        if 0 ≤ exponent then
          let scaled := value * power
          if scaled.isInf then .error .numberOutOfRange else .ok scaled
        else
          .ok (value / power)
      else if value == 0.0 then .ok value
      else if 0 ≤ exponent then .error .numberOutOfRange
      else scale bound (value / 1e308) (exponent + 308)

/-- A number that is read in double precision. -/
def floating (positive : Bool) (significand : Nat) (exponent : Int) : Except Fault Value := do
  let value ← scale 8 (UInt64.ofNat significand).toFloat exponent
  return .floating (if positive then value else -value)

namespace Reader

/-- Read digits and answer with how many there are. -/
def countDigits : Reader Nat := do
  let digits := (← get).takeWhile isDigit
  modify (·.drop digits.length)
  return digits.length

/-- Read digits after those of `value`. -/
def digits (value : Nat) : Reader (Nat × Nat × Bool) :=
  modifyGet (digitsRest value 0)

/-- Read the exponent of a number from its letter on. -/
def exponent (positive : Bool) (significand : Nat) (start : Int) : Reader Value := do
  skip
  let isNegative ← isNext ['-']
  if ← isNext ['+', '-'] then skip
  match ← next? with
  | none => throw (.ended .value)
  | some next => if !isDigit next then throw .invalidNumber
  let (size, _, _) ← digits 0
  let _ ← countDigits
  if size < Nat.pow 2 31 then
    floating positive significand (if isNegative then start - size else start + size)
  else if significand != 0 && !isNegative then
    throw .numberOutOfRange
  else
    floating positive 0 0

/-- Read the exponent of a number if it has one. -/
def optionalExponent (positive : Bool) (significand : Nat) (start : Int) : Reader Value := do
  if ← isNext ['e', 'E'] then exponent positive significand start
  else floating positive significand start

/-- Read the fraction of a number from its point on.  Digits that do not fit 64 bits
any more are left out. -/
def fraction (positive : Bool) (significand : Nat) (start : Int) : Reader Value := do
  skip
  let (significand, count, isLong) ← digits significand
  if isLong then
    let _ ← countDigits
  else if count == 0 then
    match ← next? with
    | none => throw (.ended .value)
    | some _ => throw .invalidNumber
  optionalExponent positive significand (start - count)

/-- Read what follows the whole part of a number. -/
def afterWhole (positive : Bool) (significand : Nat) : Reader Value := do
  if ← isNext ['.'] then fraction positive significand 0
  else if ← isNext ['e', 'E'] then exponent positive significand 0
  else if positive then return .integer significand
  else if significand != 0 && significand ≤ Nat.pow 2 63 then return .integer (-significand)
  else floating false significand 0

/-- Read a number after its sign. -/
def unsigned (positive : Bool) : Reader Value := do
  match ← next? with
  | none => throw (.ended .value)
  | some next =>
      if next == byte '0' then
        skip
        if (← next?).any isDigit then throw .invalidNumber
        afterWhole positive 0
      else if isDigit next then
        let (significand, _, isLong) ← digits 0
        if !isLong then afterWhole positive significand
        else
          let more ← countDigits
          if ← isNext ['.'] then fraction positive significand more
          else optionalExponent positive significand more
      else
        throw .invalidNumber

/-- Read a number. -/
def number : Reader Value := do
  if ← isNext ['-'] then
    skip
    unsigned false
  else
    unsigned true

/-- Pass over the exponent of a number from its letter on. -/
def skipExponent : Reader Unit := do
  skip
  if ← isNext ['+', '-'] then skip
  if (← countDigits) == 0 then throw .invalidNumber

/-- Pass over a number; only its form is looked at. -/
def skipNumber : Reader Unit := do
  if ← isNext ['-'] then skip
  if ← isNext ['0'] then
    skip
    if (← next?).any isDigit then throw .invalidNumber
  else if (← countDigits) == 0 then
    throw .invalidNumber
  if ← isNext ['.'] then
    skip
    if (← countDigits) == 0 then throw .invalidNumber
  if ← isNext ['e', 'E'] then skipExponent

end Reader

end ProgramGraph.Json
