import ProgramGraph.Mismatch

/-!
# What can be wrong with JSON

Text that is to be read as a record can end early, break the rules of JSON, or hold
data of the wrong shape.
-/

namespace ProgramGraph.Json

/-- What a text ended in. -/
inductive Place where
  | value
  | string
  | list
  | object
  deriving DecidableEq, Repr

/-- Why a text cannot be read. -/
inductive Fault where
  /-- The text ends early. -/
  | ended (place : Place)
  | expectedValue
  | expectedWord
  | expectedColon
  /-- A comma or the end of a list is missing. -/
  | expectedListEnd
  /-- A comma or the end of an object is missing. -/
  | expectedObjectEnd
  | keyIsNoString
  | trailingComma
  | trailingCharacters
  | invalidNumber
  | numberOutOfRange
  | invalidEscape
  /-- Half of a pair of escapes that stand for one character. -/
  | loneSurrogate
  /-- The second half of such a pair is missing. -/
  | unfinishedEscape
  | controlCharacter
  /-- The bytes of a string stand for no text. -/
  | invalidCodePoint
  /-- The text is JSON, but no record. -/
  | mismatch (cause : Mismatch)
  deriving DecidableEq, Repr

/-- The text of a fault. -/
def Fault.message : Fault → String
  | ended .value => "EOF while parsing a value"
  | ended .string => "EOF while parsing a string"
  | ended .list => "EOF while parsing a list"
  | ended .object => "EOF while parsing an object"
  | expectedValue => "expected value"
  | expectedWord => "expected ident"
  | expectedColon => "expected `:`"
  | expectedListEnd => "expected `,` or `]`"
  | expectedObjectEnd => "expected `,` or `\x7d`"
  | keyIsNoString => "key must be a string"
  | trailingComma => "trailing comma"
  | trailingCharacters => "trailing characters"
  | invalidNumber => "invalid number"
  | numberOutOfRange => "number out of range"
  | invalidEscape => "invalid escape"
  | loneSurrogate => "lone leading surrogate in hex escape"
  | unfinishedEscape => "unexpected end of hex escape"
  | controlCharacter => "control character (\\u0000-\\u001F) found while parsing a string"
  | invalidCodePoint => "invalid unicode code point"
  | mismatch cause => cause.message

end ProgramGraph.Json
