import ProgramGraph.Unicode.Debug

/-!
# Data of the wrong shape

Stored data may be well written and still not be what is asked for.  A mismatch
says what was found and what was expected; its message is worded in one place for
all formats.
-/

namespace ProgramGraph

/-- What was found in place of what was expected. -/
inductive Found where
  | null
  | boolean (value : Bool)
  | integer (value : Int)
  /-- A number that is not whole, or not written as one. -/
  | floating (shown : String)
  | text (value : String)
  | map
  | sequence
  deriving DecidableEq, Repr

/-- What was found, in words. -/
def Found.describe : Found → String
  | null => "null"
  | boolean value => s!"boolean `{value}`"
  | integer value => s!"integer `{value}`"
  | floating shown => s!"floating point `{shown}`"
  | text value => "string " ++ Unicode.quoted value
  | map => "map"
  | sequence => "sequence"

/-- How data differ from what was asked for. -/
inductive Mismatch where
  /-- Something of another sort. -/
  | type (found : Found) (expected : String)
  /-- Something of the right sort that is out of range. -/
  | value (found : Found) (expected : String)
  /-- A sequence of the wrong length. -/
  | length (count : Nat) (expected : String)
  /-- A name that is none of the allowed ones. -/
  | variant (name : String) (allowed : List String)
  /-- A field that is not there. -/
  | missingField (name : String)
  /-- A field that is there twice. -/
  | duplicateField (name : String)
  deriving DecidableEq, Repr

namespace Mismatch

/-- A name as it is quoted in a message. -/
def ticked (name : String) : String :=
  "`" ++ name ++ "`"

/-- The text of a mismatch. -/
def message : Mismatch → String
  | type found expected => "invalid type: " ++ found.describe ++ ", expected " ++ expected
  | value found expected => "invalid value: " ++ found.describe ++ ", expected " ++ expected
  | length count expected => s!"invalid length {count}, expected {expected}"
  | variant name allowed =>
      "unknown variant " ++ ticked name ++ ", expected one of " ++
        ", ".intercalate (allowed.map ticked)
  | missingField name => "missing field " ++ ticked name
  | duplicateField name => "duplicate field " ++ ticked name

end Mismatch

end ProgramGraph
