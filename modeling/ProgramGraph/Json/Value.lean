import ProgramGraph.Decimal.Shortest
import ProgramGraph.Json.Fault

/-!
# JSON values and how they are written

A value is written on one line without blanks, or on several lines with two blanks
for each level of nesting; a list or an object without members is written on one
line in either case.  In a string only quotes, backslashes and controls are
escaped.
-/

namespace ProgramGraph.Json

/-- A JSON value.  The members of an object keep their order. -/
inductive Value where
  | null
  | boolean (value : Bool)
  | integer (value : Int)
  | floating (value : Float)
  | string (value : String)
  | list (elements : List Value)
  | object (members : List (String × Value))
  deriving Repr, Inhabited

namespace Value

/-- What a value is, in the words of a message. -/
def found : Value → Found
  | null => .null
  | boolean value => .boolean value
  | integer value => .integer value
  | floating value => .floating (Decimal.showBrief value)
  | string value => .text value
  | list _ => .sequence
  | object _ => .map

end Value

/-! ## Writing -/

/-- A digit in hexadecimal. -/
def hexDigit (value : Nat) : Char :=
  Nat.digitChar value

/-- A character as it is written in a string. -/
def writeChar (c : Char) : List Char :=
  match c with
  | '"' => ['\\', '"']
  | '\\' => ['\\', '\\']
  | '\x08' => ['\\', 'b']
  | '\x0c' => ['\\', 'f']
  | '\n' => ['\\', 'n']
  | '\r' => ['\\', 'r']
  | '\t' => ['\\', 't']
  | c =>
      if c.toNat < 0x20 then ['\\', 'u', '0', '0', hexDigit (c.toNat / 16), hexDigit (c.toNat % 16)]
      else [c]

/-- A string as it is written. -/
def writeString (text : String) : List Char :=
  '"' :: text.toList.flatMap writeChar ++ ['"']

/-- How values are laid out. -/
inductive Layout where
  /-- On one line. -/
  | compact
  /-- On several lines. -/
  | pretty
  deriving DecidableEq, Repr

/-- The blanks at the beginning of a line at a level of nesting. -/
def indentation (level : Nat) : List Char :=
  '\n' :: List.replicate (2 * level) ' '

/-- What stands before an element at a level of nesting. -/
def Layout.lead (layout : Layout) (level : Nat) : List Char :=
  match layout with
  | compact => []
  | pretty => indentation level

/-- What stands between a key and its value. -/
def Layout.colon : Layout → List Char
  | compact => [':']
  | pretty => [':', ' ']

/-- A value as it is written at a level of nesting. -/
def write (layout : Layout) (level : Nat) : Value → List Char
  | .null => "null".toList
  | .boolean true => "true".toList
  | .boolean false => "false".toList
  | .integer value => (toString value).toList
  | .floating value => (Decimal.showBrief value).toList
  | .string value => writeString value
  | .list [] => ['[', ']']
  | .list (element :: elements) =>
      '[' :: layout.lead (level + 1) ++ write layout (level + 1) element ++
        writeElements layout (level + 1) elements ++ layout.lead level ++ [']']
  | .object [] => ['\x7b', '\x7d']
  | .object ((key, value) :: members) =>
      '\x7b' :: layout.lead (level + 1) ++ writeString key ++ layout.colon ++
        write layout (level + 1) value ++
        writeMembers layout (level + 1) members ++ layout.lead level ++ ['\x7d']
where
  /-- The elements of a list after the first one. -/
  writeElements (layout : Layout) (level : Nat) : List Value → List Char
    | [] => []
    | element :: elements =>
        ',' :: layout.lead level ++ write layout level element ++
          writeElements layout level elements
  /-- The members of an object after the first one. -/
  writeMembers (layout : Layout) (level : Nat) : List (String × Value) → List Char
    | [] => []
    | (key, value) :: members =>
        ',' :: layout.lead level ++ writeString key ++ layout.colon ++
          write layout level value ++ writeMembers layout level members

/-- A value as text. -/
def Value.text (layout : Layout) (value : Value) : String :=
  String.ofList (write layout 0 value)

end ProgramGraph.Json
