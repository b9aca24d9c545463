import ProgramGraph.Toml.Value

/-!
# Reading TOML text

A reader takes characters off the front of a text or fails.  Nothing is said about
where a text fails, only that it does.  Blanks, comments, line ends, keys and
strings are read here.
-/

namespace ProgramGraph.Toml

/-- A step of reading. -/
abbrev Reader := StateT (List Char) Option

namespace Reader

/-- Fail. -/
def fail {α : Type} : Reader α :=
  fun _ => none

/-- The characters that come next. -/
def rest : Reader (List Char) :=
  get

/-- The next character. -/
def peek : Reader (Option Char) :=
  return (← get).head?

/-- Pass over a number of characters. -/
def skip (count : Nat) : Reader Unit :=
  modify (·.drop count)

/-- Pass over some characters if they come next, and tell whether they do. -/
def optional (chars : List Char) : Reader Bool := do
  if chars.isPrefixOf (← get) then
    skip chars.length
    return true
  else
    return false

/-- Pass over some characters. -/
def expect (chars : List Char) : Reader Unit := do
  if !(← optional chars) then fail

/-- Take characters as long as they are of a class. -/
def takeWhile (isMember : Char → Bool) : Reader (List Char) := do
  let taken := (← get).takeWhile isMember
  skip taken.length
  return taken

/-- Take exactly `count` characters of a class. -/
def takeExactly (isMember : Char → Bool) (count : Nat) : Reader (List Char) := do
  let taken := (← get).take count
  if taken.length = count && taken.all isMember then
    skip count
    return taken
  else
    fail

/-- Read as far as a reader goes, or not at all if it fails. -/
def attempt {α : Type} (reader : Reader α) : Reader (Option α) := fun chars =>
  match reader chars with
  | some (value, rest) => some (some value, rest)
  | none => some (none, chars)

/-- Go on from a value for at most `bound` steps, until a step answers that it is
done. -/
def iterate {α : Type} (step : α → Reader (Option α)) : Nat → α → Reader α
  | 0, value => return value
  | bound + 1, value => do
      match ← step value with
      | some next => iterate step bound next
      | none => return value

end Reader

/-! ## Blanks, comments and line ends -/

/-- Whether a character is a blank within a line. -/
def isBlank (c : Char) : Bool :=
  c == ' ' || c == '\t'

/-- Whether a character may stand in text as it is: no control but the tab. -/
def isPlain (c : Char) : Bool :=
  c == '\t' || 0x20 ≤ c.toNat && c.toNat != 0x7F

namespace Reader

/-- Pass over blanks. -/
def blanks : Reader Unit := do
  let _ ← takeWhile isBlank

/-- Pass over a line end if one comes next, and tell whether it does. -/
def optionalLineEnd : Reader Bool := do
  if ← optional ['\n'] then return true else optional ['\r', '\n']

/-- Pass over a comment if one comes next. -/
def optionalComment : Reader Unit := do
  if ← optional ['#'] then
    let _ ← takeWhile isPlain

/-- Read the end of a line with content: blanks, perhaps a comment, and a line end or
the end of the text. -/
def endOfLine : Reader Unit := do
  blanks
  optionalComment
  if !(← optionalLineEnd) && !(← rest).isEmpty then fail

/-- Pass over blanks, line ends and comments; a comment needs a line end after
it. -/
def gaps : Reader Unit := do
  iterate
    (fun _ => do
      blanks
      if ← optionalLineEnd then return some ()
      if (← peek) == some '#' then
        optionalComment
        if ← optionalLineEnd then return some () else fail
      return none)
    ((← rest).length + 1) ()

end Reader

/-! ## Strings -/

/-- The value of a hexadecimal digit. -/
def hexValue (c : Char) : Nat :=
  if c.isDigit then c.toNat - '0'.toNat
  else if 'a' ≤ c && c ≤ 'f' then c.toNat - 'a'.toNat + 10
  else c.toNat - 'A'.toNat + 10

/-- Whether a character is a hexadecimal digit. -/
def isHexDigit (c : Char) : Bool :=
  c.isDigit || 'a' ≤ c && c ≤ 'f' || 'A' ≤ c && c ≤ 'F'

namespace Reader

/-- Read the number of a character in `count` hexadecimal digits. -/
def numbered (count : Nat) : Reader Char := do
  let digits ← takeExactly isHexDigit count
  let value := digits.foldl (fun value c => value * 16 + hexValue c) 0
  if value.isValidChar then return Char.ofNat value else fail

/-- Read a character after a backslash. -/
def escape : Reader Char := do
  match ← rest with
  | [] => fail
  | c :: chars =>
      set chars
      match c with
      | 'b' => return '\x08'
      | 't' => return '\t'
      | 'n' => return '\n'
      | 'f' => return '\x0c'
      | 'r' => return '\r'
      | '"' => return '"'
      | '\\' => return '\\'
      | 'u' => numbered 4
      | 'U' => numbered 8
      | _ => fail

/-- Read a string on one line after its opening quote.  Escapes are read in double
quotes only. -/
def lineString (quote : Char) : Reader String := do
  let (chars, closed) ← iterate
    (fun (chars, closed) => do
      if closed then return none
      match ← peek with
      | none => fail
      | some c =>
          if !isPlain c then fail
          skip 1
          if c == quote then return some (chars, true)
          else if c == '\\' && quote == '"' then return some ((← escape) :: chars, false)
          else return some (c :: chars, false))
    ((← rest).length + 1) ([], false)
  if closed then return String.ofList chars.reverse else fail

/-- Pass over a backslash at the end of a line with the blanks and line ends after
it, and tell whether there is one. -/
def optionalJoin : Reader Bool := do
  let joined ← attempt do
    expect ['\\']
    blanks
    if !(← optionalLineEnd) then fail
    iterate
      (fun _ => do
        let before := (← rest).length
        blanks
        let _ ← optionalLineEnd
        if (← rest).length == before then return none else return some ())
      ((← rest).length + 1) ()
  return joined.isSome

/-- Read a string on several lines after its opening quotes.  One or two quotes are
part of it, at its end too; a line end at its beginning is not. -/
def blockString (quote : Char) : Reader String := do
  let _ ← optionalLineEnd
  let (chars, closed) ← iterate
    (fun (chars, closed) => do
      if closed then return none
      let quotes := ((← rest).takeWhile (· == quote)).length
      if 3 ≤ quotes then
        let count := min quotes 5
        skip count
        return some (List.replicate (count - 3) quote ++ chars, true)
      else if ← optionalLineEnd then
        return some ('\n' :: chars, false)
      else if ← (if quote == '"' then optionalJoin else return false) then
        return some (chars, false)
      else
        match ← peek with
        | none => fail
        | some c =>
            if !isPlain c then fail
            skip 1
            if c == '\\' && quote == '"' then return some ((← escape) :: chars, false)
            else return some (c :: chars, false))
    ((← rest).length + 1) ([], false)
  if closed then return String.ofList chars.reverse else fail

/-- Read a string. -/
def string : Reader String := do
  if ← optional ['"', '"', '"'] then blockString '"'
  else if ← optional ['"'] then lineString '"'
  else if ← optional ['\'', '\'', '\''] then blockString '\''
  else if ← optional ['\''] then lineString '\''
  else fail

/-! ## Keys -/

/-- Read one part of a key: a bare word or a string on one line. -/
def simpleKey : Reader String := do
  if ← optional ['"'] then lineString '"'
  else if ← optional ['\''] then lineString '\''
  else
    let word ← takeWhile fun c => c.isAlphanum || c == '_' || c == '-'
    if word.isEmpty then fail else return String.ofList word

/-- How many parts a key may have, and how deep values may nest, one more than is
allowed. -/
def depthLimit : Nat := 80

/-- Read a key: parts joined by dots, with blanks around each.  The answer is the
parts before the last one, and the last one. -/
def key : Reader (List String × String) := do
  let part : Reader String := do
    blanks
    let name ← simpleKey
    blanks
    return name
  let first ← part
  let (path, last) ← iterate
    (fun (path, last) => do
      if ← optional ['.'] then return some (last :: path, ← part) else return none)
    ((← rest).length + 1) ([], first)
  if depthLimit ≤ path.length + 1 then fail else return (path.reverse, last)

end Reader

end ProgramGraph.Toml
