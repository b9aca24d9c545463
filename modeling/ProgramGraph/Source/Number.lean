import ProgramGraph.Unicode.Identifier

/-!
# Numbers in source text

A number begins with a decimal digit.  It is a decimal fraction if it has a point
or an exponent, and a whole number in base two, eight, ten or sixteen otherwise;
either may end in a suffix that is an identifier.  The scanners answer with the
number of characters that the number takes from the front of a text.
-/

namespace ProgramGraph.Source

open ProgramGraph.Unicode

/-- The length of the identifier at the front of a text. -/
def identifierLength : List Char → Option Nat
  | [] => none
  | c :: text =>
      if isIdentifierStart c then some ((text.takeWhile isIdentifierPart).length + 1)
      else none

/-- The length of the optional suffix at the front of a text. -/
def suffixLength (text : List Char) : Nat :=
  (identifierLength text).getD 0

namespace Number

/-- The value of a digit in a base up to sixteen, letters of either case
included. -/
def digitValue? (c : Char) : Option Nat :=
  if c.isDigit then some (c.toNat - '0'.toNat)
  else if 'a' ≤ c && c ≤ 'f' then some (c.toNat - 'a'.toNat + 10)
  else if 'A' ≤ c && c ≤ 'F' then some (c.toNat - 'A'.toNat + 10)
  else none

/-- The base of a number and the length of the mark that announces it. -/
def base : List Char → Nat × Nat
  | '0' :: 'x' :: _ => (16, 2)
  | '0' :: 'o' :: _ => (8, 2)
  | '0' :: 'b' :: _ => (2, 2)
  | _ => (10, 0)

/-- The length of a run of digits in a base, with low lines between them.  There
is none if no digit is found, if a decimal run begins with a low line, or if a
decimal digit is too large for the base; `seen` tells whether a digit was found
among the `length` characters before. -/
def digitsLength (base : Nat) (seen : Bool) (length : Nat) : List Char → Option Nat
  | [] => if seen then some length else none
  | c :: text =>
      if c == '_' then
        if !seen && base == 10 then none else digitsLength base seen (length + 1) text
      else
        match digitValue? c with
        | some value =>
            if value < base then digitsLength base true (length + 1) text
            else if c.isDigit then none
            else if seen then some length
            else none
        | none => if seen then some length else none

/-- A text goes on without touching the number before it. -/
def isBoundary (text : List Char) : Bool :=
  match text with
  | [] => true
  | c :: _ => !isIdentifierPart c

/-- The length of the whole number at the front of a text. -/
def wholeLength (text : List Char) : Option Nat := do
  let (base, mark) := base text
  let digits ← digitsLength base false 0 (text.drop mark)
  let length := mark + digits
  let length := length + suffixLength (text.drop length)
  if isBoundary (text.drop length) then some length else none

/-- The length of the digits, low lines and sign of an exponent.  The exponent
fails if it has no digit or two signs; a sign after a digit ends it. -/
def exponentLength (signed seen : Bool) (length : Nat) : List Char → Option Nat
  | [] => if seen then some length else none
  | c :: text =>
      if c == '+' || c == '-' then
        if seen then some length
        else if signed then none
        else exponentLength true seen (length + 1) text
      else if c.isDigit then exponentLength signed true (length + 1) text
      else if c == '_' then exponentLength signed seen (length + 1) text
      else if seen then some length
      else none

/-- The length of a fraction after its first digit.  A second point ends it; a
point before another point or before an identifier belongs to what follows, and
then the text is no fraction.  Where the exponent fails, the fraction ends
before it, provided that it has a point. -/
def fractionRest (point : Bool) (length : Nat) : List Char → Option Nat
  | [] => if point then some length else none
  | c :: text =>
      if c.isDigit || c == '_' then fractionRest point (length + 1) text
      else if c == '.' then
        if point then some length
        else
          match text with
          | [] => some (length + 1)
          | next :: _ =>
              if next == '.' || isIdentifierStart next then none
              else fractionRest true (length + 1) text
      else if c == 'e' || c == 'E' then
        match exponentLength false false (length + 1) text with
        | some length => some length
        | none => if point then some length else none
      else if point then some length
      else none

/-- The length of the decimal fraction at the front of a text. -/
def fractionLength : List Char → Option Nat
  | [] => none
  | c :: text => do
      if !c.isDigit then none
      let length ← fractionRest false 1 text
      let length := length + suffixLength ((c :: text).drop length)
      if isBoundary ((c :: text).drop length) then some length else none

/-- Whether the letters after an exponent mark make the number a fraction: they
begin, low lines apart, with a sign, or they have a digit and then end or go on
with an identifier. -/
def isExponent (seen : Bool) : List Char → Bool
  | [] => seen
  | c :: text =>
      if c == '_' then isExponent seen text
      else if c == '-' || c == '+' then true
      else if c.isDigit then isExponent true text
      else seen && isIdentifierStart c

/-- The suffix of a number that is read as a whole number, and `none` if it is
no whole number. -/
def wholeSuffix? (base : Nat) (seen : Bool) : List Char → Option (List Char)
  | [] => if seen then some [] else none
  | c :: text =>
      if c == '_' then wholeSuffix? base seen text
      else
        let value := if c.isDigit || 10 < base then digitValue? c else none
        match value with
        | some value => if value < base then wholeSuffix? base true text else none
        | none =>
            if base == 10 && c == '.' then none
            else if base == 10 && (c == 'e' || c == 'E') && isExponent false text then none
            else if seen then some (c :: text)
            else none

/-- The suffix of a number if the number is whole. -/
def suffix? (text : List Char) : Option (List Char) :=
  let (base, mark) := base text
  wholeSuffix? base false (text.drop mark)

/-- The value of a run of digits in a base, low lines left out. -/
def digitsValue (base : Nat) (digits : List Char) : Nat :=
  (digits.filterMap digitValue?).foldl (fun value digit => value * base + digit) 0

/-- The value of a number, if it is whole and has no suffix. -/
def value? (text : List Char) : Option Nat :=
  match suffix? text with
  | some [] =>
      let (base, mark) := base text
      some (digitsValue base (text.drop mark))
  | _ => none

end Number

end ProgramGraph.Source
