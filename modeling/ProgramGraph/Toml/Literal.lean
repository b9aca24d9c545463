import ProgramGraph.Toml.Scan

/-!
# Numbers, dates and times in TOML

A whole number is written in base ten, or in base two, eight or sixteen after a
mark; it has to fit 64 bits with a sign.  A low line may stand between two digits.
A number with a fraction or an exponent is read in double precision.

Dates and times are only checked: a month has the days it has in its year, and a
minute may have a leap second.
-/

namespace ProgramGraph.Toml

/-- The value of digits in a base. -/
def digitsValue (base : Nat) (digits : List Char) : Nat :=
  digits.foldl (fun value c => value * base + hexValue c) 0

/-- A number in decimal notation, read in double precision. -/
def toDouble (digits : List Char) (exponent : Int) : Float :=
  let value := digitsValue 10 digits
  let size := digits.length + exponent
  if value == 0 || size < -400 then 0.0
  else if 400 < size then 1.0 / 0.0
  else if 0 ≤ exponent then Float.ofScientific value false exponent.toNat
  else Float.ofScientific value true (-exponent).toNat

namespace Reader

/-! ## Numbers -/

/-- Read digits with low lines between them; the low lines are left out. -/
def digits (isMember : Char → Bool) : Reader (List Char) := do
  let first ← takeExactly isMember 1
  let found ← iterate
    (fun found => do
      let line ← optional ['_']
      if line || (← peek).any isMember then
        return some ((← takeExactly isMember 1) ++ found)
      else
        return none)
    ((← rest).length + 1) first
  return found.reverse

/-- Read a sign and tell whether it is negative. -/
def sign : Reader Bool := do
  if ← optional ['-'] then return true
  let _ ← optional ['+']
  return false

/-- Read a whole decimal number without a sign; only zero begins with a zero. -/
def wholeDigits : Reader (List Char) := do
  if ← optional ['0'] then return ['0'] else digits Char.isDigit

/-- Read digits in a base after its mark. -/
def marked (base : Nat) (isMember : Char → Bool) : Reader Value := do
  let value := digitsValue base (← digits isMember)
  if value < Nat.pow 2 63 then return .integer value else fail

/-- Read a whole number. -/
def integer : Reader Value := do
  if ← optional ['0', 'x'] then marked 16 isHexDigit
  else if ← optional ['0', 'o'] then marked 8 fun c => '0' ≤ c && c ≤ '7'
  else if ← optional ['0', 'b'] then marked 2 fun c => c == '0' || c == '1'
  else
    let negative ← sign
    let value := digitsValue 10 (← wholeDigits)
    if negative then
      if value ≤ Nat.pow 2 63 then return .integer (-(value : Int)) else fail
    else
      if value < Nat.pow 2 63 then return .integer value else fail

/-- Read the exponent of a number from its letter on. -/
def exponent : Reader Int := do
  let _ ← takeExactly (fun c => c == 'e' || c == 'E') 1
  let negative ← sign
  let value : Int := digitsValue 10 (← digits Char.isDigit)
  return if negative then -value else value

/-- Read a number with a fraction or an exponent, or the name of a number that is not
finite.  One that is too large is refused, unless it is negative. -/
def floating : Reader Value := do
  let negative ← sign
  if ← optional ['i', 'n', 'f'] then
    return .floating (if negative then -1.0 / 0.0 else 1.0 / 0.0)
  if ← optional ['n', 'a', 'n'] then
    return .floating (0.0 / 0.0)
  let whole ← wholeDigits
  let fraction ← if ← optional ['.'] then digits Char.isDigit else pure []
  let power ←
    if fraction.isEmpty then exponent
    else pure ((← attempt exponent).getD 0)
  let value := toDouble (whole ++ fraction) (power - fraction.length)
  if negative then return .floating (-value)
  else if value.isInf then fail
  else return .floating value

/-! ## Dates and times -/

/-- Read a number of exactly `count` digits between two limits. -/
def field (count low high : Nat) : Reader Nat := do
  let value := digitsValue 10 (← takeExactly Char.isDigit count)
  if low ≤ value && value ≤ high then return value else fail

/-- How many days a month has. -/
def daysIn (year month : Nat) : Nat :=
  let isLeap := year % 4 == 0 && (year % 100 != 0 || year % 400 == 0)
  if month == 2 then (if isLeap then 29 else 28)
  else if [4, 6, 9, 11].contains month then 30
  else 31

/-- Read a date. -/
def date : Reader Unit := do
  let year ← field 4 0 9999
  expect ['-']
  let month ← field 2 1 12
  expect ['-']
  let _ ← field 2 1 (daysIn year month)

/-- Read a time of day. -/
def time : Reader Unit := do
  let _ ← field 2 0 23
  expect [':']
  let _ ← field 2 0 59
  expect [':']
  let _ ← field 2 0 60
  if ← optional ['.'] then
    let _ ← takeExactly Char.isDigit 1
    let _ ← takeWhile Char.isDigit

/-- Read the distance of a time from universal time, if it is given. -/
def offset : Reader Unit := do
  match ← peek with
  | some 'Z' | some 'z' => skip 1
  | some '+' | some '-' =>
      skip 1
      let _ ← field 2 0 23
      expect [':']
      let _ ← field 2 0 59
  | _ => return ()

/-- Read a date, a time, or both with a letter or a blank between them. -/
def moment : Reader Value := do
  if (← attempt date).isSome then
    let _ ← attempt do
      let _ ← takeExactly (fun c => c == 'T' || c == 't' || c == ' ') 1
      time
      offset
    return .moment
  else
    time
    return .moment

end Reader

end ProgramGraph.Toml
