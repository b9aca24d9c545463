import ProgramGraph.Source.Number
import ProgramGraph.Unicode.Blank
import ProgramGraph.Unicode.Printable

/-!
# Quoted text in source text

Strings and characters stand between quotes, with escapes; raw strings stand
between a quote and a number of number signs, without escapes.  A `Dialect` says
what one form of quoted text admits.  The scanners answer with the number of
characters that the form takes from the front of a text; `value` is the text that
a string stands for and `quote` is the string that stands for a text.
-/

namespace ProgramGraph.Source.Quoted

open ProgramGraph.Unicode

/-- What one form of quoted text admits. -/
structure Dialect where
  /-- The characters that stand for themselves, escapes and quotes apart. -/
  admits : Char → Bool
  /-- The characters that make an escape of two characters. -/
  simple : List Char
  /-- The pairs of digits after `x`. -/
  hexadecimal : Char → Char → Bool
  /-- The code points that may be written in braces after `u`. -/
  point : Nat → Bool

/-- Whether a character is a hexadecimal digit. -/
def isHexDigit (c : Char) : Bool :=
  (Number.digitValue? c).isSome

/-- Whether a number is a Unicode scalar value. -/
def isScalar (value : Nat) : Bool :=
  value < 0xD800 || (0xDFFF < value && value < 0x110000)

/-- Text of characters. -/
def characters : Dialect where
  admits _ := true
  simple := ['n', 'r', 't', '\\', '\'', '"', '0']
  hexadecimal first second := '0' ≤ first && first ≤ '7' && isHexDigit second
  point := isScalar

/-- Text of bytes. -/
def bytes : Dialect where
  admits c := c.toNat < 0x80
  simple := ['n', 'r', 't', '\\', '0', '\'', '"']
  hexadecimal first second := isHexDigit first && isHexDigit second
  point _ := false

/-- Text that a zero ends, and that therefore holds none. -/
def zeroEnded : Dialect where
  admits c := c != '\x00'
  simple := ['n', 'r', 't', '\\', '\'', '"']
  hexadecimal first second :=
    isHexDigit first && isHexDigit second && !(first == '0' && second == '0')
  point value := isScalar value && value != 0

/-- The code point in braces at the front of a text, with the length of the
braces and what they hold.  At most six digits may be given, with low lines after
the first. -/
def bracedFrom (digits value length : Nat) : List Char → Option (Nat × Nat)
  | [] => none
  | c :: text =>
      if c == '_' && 0 < digits then bracedFrom digits value (length + 1) text
      else if c == '}' && 0 < digits then some (value, length + 1)
      else
        match Number.digitValue? c with
        | some digit =>
            if digits == 6 then none
            else bracedFrom (digits + 1) (value * 16 + digit) (length + 1) text
        | none => none

/-- The braced code point at the front of a text. -/
def braced : List Char → Option (Nat × Nat)
  | '{' :: text => bracedFrom 0 0 1 text
  | _ => none

/-- The length of the blanks after an escaped line end.  A carriage return has to
come before a line feed, and some other character has to follow. -/
def gapLength (length : Nat) : List Char → Option Nat
  | [] => none
  | '\r' :: '\n' :: text => gapLength (length + 2) text
  | '\r' :: _ => none
  | c :: text =>
      if c == ' ' || c == '\t' || c == '\n' then gapLength (length + 1) text
      else some length

/-- The length of an escape after its backslash, line ends apart. -/
def escapeLength (dialect : Dialect) : List Char → Option Nat
  | 'x' :: first :: second :: _ => if dialect.hexadecimal first second then some 3 else none
  | 'u' :: text =>
      (braced text).bind fun (value, length) =>
        if dialect.point value then some (length + 1) else none
  | c :: _ => if dialect.simple.contains c then some 1 else none
  | [] => none

/-- The length of an escape after its backslash in a string, where a line end may
be escaped together with the blanks after it. -/
def stringEscapeLength (dialect : Dialect) : List Char → Option Nat
  | '\n' :: text => gapLength 1 text
  | '\r' :: '\n' :: text => gapLength 2 text
  | text => escapeLength dialect text

/-- The length of a string after its opening quote, closing quote included;
`skip` characters of an escape still have to pass. -/
def stringRest (dialect : Dialect) (skip length : Nat) : List Char → Option Nat
  | [] => none
  | c :: text =>
      match skip with
      | skip + 1 => stringRest dialect skip (length + 1) text
      | 0 =>
          if c == '"' then some (length + 1)
          else if c == '\r' then
            if text.head? == some '\n' then stringRest dialect 1 (length + 1) text else none
          else if c == '\\' then
            match stringEscapeLength dialect text with
            | some skip => stringRest dialect skip (length + 1) text
            | none => none
          else if dialect.admits c then stringRest dialect 0 (length + 1) text
          else none

/-- The length of a raw string after its opening quote, closing quote and number
signs included. -/
def rawRest (admits : Char → Bool) (signs skip length : Nat) : List Char → Option Nat
  | [] => none
  | c :: text =>
      match skip with
      | skip + 1 => rawRest admits signs skip (length + 1) text
      | 0 =>
          if c == '"' && text.take signs == List.replicate signs '#' then
            some (length + 1 + signs)
          else if c == '\r' then
            if text.head? == some '\n' then rawRest admits signs 1 (length + 1) text else none
          else if admits c then rawRest admits signs 0 (length + 1) text
          else none

/-- The length of a raw string from its first number sign or quote on.  At most
255 number signs may be given. -/
def rawLength (admits : Char → Bool) (text : List Char) : Option Nat :=
  let signs := (text.takeWhile (· == '#')).length
  match text.drop signs with
  | '"' :: body =>
      if 255 < signs then none
      else (rawRest admits signs 0 0 body).map (· + signs + 1)
  | _ => none

/-- The length of a single character with its closing quote, after the opening
one. -/
def characterRest (dialect : Dialect) : List Char → Option Nat
  | '\\' :: text =>
      (escapeLength dialect text).bind fun length =>
        if text[length]? == some '\'' then some (length + 2) else none
  | c :: '\'' :: _ => if dialect.admits c then some 2 else none
  | _ => none

/-- The length of the quoted text at the front of a text, its suffix left
out. -/
def bareLength : List Char → Option Nat
  | '"' :: text => (stringRest characters 0 0 text).map (· + 1)
  | 'r' :: text => (rawLength characters.admits text).map (· + 1)
  | 'b' :: '"' :: text => (stringRest bytes 0 0 text).map (· + 2)
  | 'b' :: 'r' :: text => (rawLength bytes.admits text).map (· + 2)
  | 'b' :: '\'' :: text => (characterRest bytes text).map (· + 2)
  | 'c' :: '"' :: text => (stringRest zeroEnded 0 0 text).map (· + 2)
  | 'c' :: 'r' :: text => (rawLength zeroEnded.admits text).map (· + 2)
  | '\'' :: text => (characterRest characters text).map (· + 1)
  | _ => none

/-- The length of the quoted text at the front of a text, with its suffix. -/
def length? (text : List Char) : Option Nat :=
  (bareLength text).map fun length => length + suffixLength (text.drop length)

/-! ## Values -/

/-- The character that an escape of two characters stands for. -/
def simpleValue : Char → Char
  | 'n' => '\n'
  | 'r' => '\r'
  | 't' => '\t'
  | '0' => '\x00'
  | c => c

/-- The two hexadecimal digits at the front of a text as a character. -/
def hexValue (first second : Char) : Char :=
  Char.ofNat ((Number.digitValue? first).getD 0 * 16 + (Number.digitValue? second).getD 0)

/-- The value of a string after its opening quote; `skip` characters of an escape
still have to pass.  A line end is a line feed, however it is written, and an
escaped line end stands for nothing, together with the blanks after it. -/
def valueRest (skip : Nat) : List Char → List Char
  | [] => []
  | c :: text =>
      match skip with
      | skip + 1 => valueRest skip text
      | 0 =>
          if c == '"' then []
          else if c == '\r' then '\n' :: valueRest 1 text
          else if c == '\\' then
            match text with
            | 'x' :: first :: second :: _ => hexValue first second :: valueRest 3 text
            | 'u' :: rest =>
                let (value, length) := (braced rest).getD (0, 0)
                Char.ofNat value :: valueRest (length + 1) text
            | escaped :: rest =>
                if escaped == '\n' || escaped == '\r' then
                  valueRest ((rest.takeWhile isBlank).length + 1) text
                else
                  simpleValue escaped :: valueRest 1 text
            | [] => []
          else c :: valueRest 0 text

/-- The text between the quotes of a raw string, after its first letter: what
stands before the last quote. -/
def rawValue (text : List Char) : List Char :=
  let signs := (text.takeWhile (· == '#')).length
  let body := text.drop (signs + 1)
  ((body.reverse.dropWhile (· != '"')).drop 1).reverse

/-- The value of a string, and `none` for every other form. -/
def value? : List Char → Option (List Char)
  | '"' :: text => some (valueRest 0 text)
  | 'r' :: text => some (rawValue text)
  | _ => none

/-! ## Quoting -/

/-- The hexadecimal digits of a number, in lower case. -/
def hexDigits (value : Nat) : List Char :=
  Nat.toDigits 16 value

/-- A character as it is shown in a quoted text, before the text `next`.  A zero
before an octal digit is spelled out, so that no digit joins it. -/
def quoteChar (c : Char) (next : List Char) : List Char :=
  if c == '\x00' then
    match next with
    | digit :: _ =>
        if '0' ≤ digit && digit ≤ '7' then ['\\', 'x', '0', '0'] else ['\\', '0']
    | [] => ['\\', '0']
  else if c == '\'' then ['\'']
  else if c == '\t' then ['\\', 't']
  else if c == '\r' then ['\\', 'r']
  else if c == '\n' then ['\\', 'n']
  else if c == '\\' || c == '"' then ['\\', c]
  else if isPrintable c then [c]
  else ['\\', 'u', '{'] ++ hexDigits c.toNat ++ ['}']

/-- The characters of a text as they are shown in a quoted text. -/
def quoteChars : List Char → List Char
  | [] => []
  | c :: text => quoteChar c text ++ quoteChars text

/-- The string that stands for a text. -/
def quote (text : List Char) : List Char :=
  '"' :: quoteChars text ++ ['"']

end ProgramGraph.Source.Quoted
