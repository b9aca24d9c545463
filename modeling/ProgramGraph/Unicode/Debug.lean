import ProgramGraph.Unicode.Printable

/-!
# Quoted texts in messages

A message shows a text in double quotes.  Quotes and backslashes are escaped, the
common controls have names, and every other character without a visible form of
its own is shown by its number in hexadecimal.
-/

namespace ProgramGraph.Unicode

/-- A number in hexadecimal. -/
def hexadecimal (value : Nat) : List Char :=
  Nat.toDigits 16 value

/-- A character as it is shown within double quotes. -/
def showChar (c : Char) : List Char :=
  if c == '\x00' then ['\\', '0']
  else if c == '\t' then ['\\', 't']
  else if c == '\r' then ['\\', 'r']
  else if c == '\n' then ['\\', 'n']
  else if c == '\\' || c == '"' then ['\\', c]
  else if isPrintable c then [c]
  else ['\\', 'u', '\x7b'] ++ hexadecimal c.toNat ++ ['\x7d']

/-- A text as it is shown in a message. -/
def quoted (text : String) : String :=
  String.ofList ('"' :: text.toList.flatMap showChar ++ ['"'])

end ProgramGraph.Unicode
