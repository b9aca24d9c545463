/-!
# Shortest decimals

A number in double precision is shown with the fewest digits that read back as the
same number; of the decimals with that many digits the nearest one is taken.

The number is taken apart into a whole number times a power of two.  The decimals
that read back form an interval around it.  For one digit after the other the two
neighbours of the number on the grid of decimals with that many digits are tested
against the interval, in exact arithmetic; seventeen digits always suffice.
-/

namespace ProgramGraph.Decimal

/-- A positive number times a power of two. -/
structure Binary where
  significand : Nat
  exponent : Int
  deriving DecidableEq, Repr

/-- A decimal: its digits as a whole number, and the exponent of its first digit. -/
structure Numeral where
  digits : Nat
  exponent : Int
  deriving DecidableEq, Repr

/-- A fraction of natural numbers. -/
structure Ratio where
  numerator : Nat
  denominator : Nat
  deriving DecidableEq, Repr

/-- A whole number times a power of a base, as a fraction. -/
def Ratio.scaled (value base : Nat) (exponent : Int) : Ratio :=
  if 0 ≤ exponent then ⟨value * base.pow exponent.toNat, 1⟩
  else ⟨value, base.pow (-exponent).toNat⟩

/-- Whether a fraction is less than another. -/
def Ratio.less (left right : Ratio) : Bool :=
  left.numerator * right.denominator < right.numerator * left.denominator

/-- Whether two fractions are equal. -/
def Ratio.same (left right : Ratio) : Bool :=
  left.numerator * right.denominator == right.numerator * left.denominator

/-- The ends of the interval of numbers that read back as a number.  Below a power
of two the neighbour is only half as far away, unless it is the smallest one. -/
def Binary.interval (value : Binary) : Ratio × Ratio :=
  let isPower := value.significand == Nat.pow 2 52 && -1074 < value.exponent
  let low := if isPower then 4 * value.significand - 1 else 4 * value.significand - 2
  (.scaled low 2 (value.exponent - 2), .scaled (4 * value.significand + 2) 2 (value.exponent - 2))

/-- Whether a decimal reads back as a number.  The ends of the interval do so when
the significand is even. -/
def Binary.admits (value : Binary) (decimal : Ratio) : Bool :=
  let (low, high) := value.interval
  let even := value.significand % 2 == 0
  (low.less decimal || even && low.same decimal) && (decimal.less high || even && high.same decimal)

/-- The greatest power of ten that is not above a fraction, searched from `guess`
on downwards. -/
def leadingPower (value : Ratio) : Nat → Int → Int
  | 0, guess => guess
  | bound + 1, guess =>
      if value.less (.scaled 1 10 guess) then leadingPower value bound (guess - 1) else guess

/-- The decimal with a given number of digits that reads back as a number and is
nearest to it; of two that are equally near, the one with an even last digit. -/
def nearest? (value : Binary) (lead : Int) (count : Nat) : Option Nat :=
  let exact := Ratio.scaled value.significand 2 value.exponent
  let step := lead - (count : Int) + 1
  let unit := Ratio.scaled 1 10 step
  let below := exact.numerator * unit.denominator / (exact.denominator * unit.numerator)
  let grid (digits : Nat) : Ratio := .scaled digits 10 step
  let admitsBelow := value.admits (grid below)
  let admitsAbove := value.admits (grid (below + 1))
  let middle := Ratio.scaled (2 * below + 1) 10 step
  let twice := Ratio.scaled (2 * value.significand) 2 value.exponent
  if admitsBelow && admitsAbove then
    if twice.less middle then some below
    else if middle.less twice then some (below + 1)
    else some (if below % 2 == 0 then below else below + 1)
  else if admitsBelow then some below
  else if admitsAbove then some (below + 1)
  else none

/-- A whole number without the zeros at its end. -/
def dropZeros : Nat → Nat → Nat
  | 0, digits => digits
  | bound + 1, digits =>
      if digits % 10 == 0 && digits != 0 then dropZeros bound (digits / 10) else digits

/-- The shortest decimal with at least `count` digits, of which at most `bound` more
are tried. -/
def shortestFrom (value : Binary) (lead : Int) : Nat → Nat → Numeral
  | 0, count => ⟨(nearest? value lead count).getD 0, lead⟩
  | bound + 1, count =>
      match nearest? value lead count with
      | some digits =>
          if digits == Nat.pow 10 count then ⟨1, lead + 1⟩ else ⟨dropZeros count digits, lead⟩
      | none => shortestFrom value lead bound (count + 1)

/-- The shortest decimal that reads back as a number. -/
def Binary.shortest (value : Binary) : Numeral :=
  let exact := Ratio.scaled value.significand 2 value.exponent
  shortestFrom value (leadingPower exact 700 309) 16 1

/-- The digits of a decimal. -/
def Numeral.text (numeral : Numeral) : List Char :=
  Nat.toDigits 10 numeral.digits

/-! ## Numbers in double precision -/

/-- A finite number without its sign; zero has none. -/
def binaryOf (value : Float) : Option Binary :=
  let bits := value.toBits.toNat
  let exponent : Nat := bits / Nat.pow 2 52 % Nat.pow 2 11
  let fraction : Nat := bits % Nat.pow 2 52
  if exponent == 0 then
    if fraction == 0 then none else some ⟨fraction, -1074⟩
  else
    some ⟨Nat.pow 2 52 + fraction, (exponent : Int) - 1075⟩

/-- Whether the sign of a number is negative. -/
def isNegative (value : Float) : Bool :=
  Nat.pow 2 63 ≤ value.toBits.toNat

/-- Digits with a point after the first `count` of them, filled up with zeros, and
at least one digit on each side. -/
def positional (digits : List Char) (exponent : Int) : List Char :=
  let count := exponent + 1
  if count ≤ 0 then
    ['0', '.'] ++ List.replicate (-count).toNat '0' ++ digits
  else
    let whole := digits.take count.toNat
    let fraction := digits.drop count.toNat
    whole ++ List.replicate (count.toNat - digits.length) '0' ++ ['.'] ++
      (if fraction.isEmpty then ['0'] else fraction)

/-- Digits with a point after the first one and the exponent after all. -/
def scientific (digits : List Char) (exponent : Int) : List Char :=
  let fraction := digits.drop 1
  digits.take 1 ++ (if fraction.isEmpty then [] else '.' :: fraction) ++
    ['e', if exponent < 0 then '-' else '+'] ++ Nat.toDigits 10 exponent.natAbs

/-- A finite number; an exponent outside the limits is written out. -/
def showWith (low high : Int) (value : Float) : String :=
  let sign := if isNegative value then ['-'] else []
  match binaryOf value with
  | none => String.ofList (sign ++ ['0', '.', '0'])
  | some binary =>
      let decimal := binary.shortest
      let body := if low ≤ decimal.exponent && decimal.exponent ≤ high
        then positional decimal.text decimal.exponent
        else scientific decimal.text decimal.exponent
      String.ofList (sign ++ body)

/-- A number in the style of data files: an exponent is written out above fifteen
and below minus five. -/
def showBrief (value : Float) : String :=
  showWith (-5) 15 value

/-- A number in full: never with an exponent, and with names for what is not
finite. -/
def showFull (value : Float) : String :=
  if value.isNaN then "NaN"
  else if value.isInf then (if isNegative value then "-inf" else "inf")
  else showWith (-400) 400 value

end ProgramGraph.Decimal
