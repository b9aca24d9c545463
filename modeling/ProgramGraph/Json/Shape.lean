import ProgramGraph.Json.Skip

/-!
# Reading data of a given shape

A shape is a named list of fields.  Data of a shape are an object with these fields
in any order, or a list of their values in the order of the shape.  Unknown fields
of an object are passed over, and each field has to be there once.

The first thing that does not fit is the fault, in the order of reading; a field
that is missing is found at the end of the object.
-/

namespace ProgramGraph.Json

namespace Reader

/-- Fail with what is found here in place of what was expected. -/
def mismatchHere {α : Type} (expected : String) : Reader α := do
  let refuse (found : Found) : Reader α := throw (.mismatch (.type found expected))
  match ← peek with
  | none => throw (.ended .value)
  | some next =>
      if next == byte 'n' then
        word "null".toList
        refuse .null
      else if next == byte 't' then
        word "true".toList
        refuse (.boolean true)
      else if next == byte 'f' then
        word "false".toList
        refuse (.boolean false)
      else if next == byte '-' || isDigit next then
        refuse (← number).found
      else if next == byte '"' then
        refuse (.text (← string))
      else if next == byte '[' then
        refuse .sequence
      else if next == byte '\x7b' then
        refuse .map
      else
        throw .expectedValue

/-- Read a string where one is expected. -/
def stringOr (expected : String) : Reader String := do
  if (← peek) == some (byte '"') then string else mismatchHere expected

/-- Read a text. -/
def text : Reader String :=
  stringOr "a string"

/-- Read a number of 64 bits without a sign. -/
def natural (expected : String) : Reader Nat := do
  match ← peek with
  | none => throw (.ended .value)
  | some next =>
      if next == byte '-' || isDigit next then
        match ← number with
        | .integer (.ofNat value) => return value
        | .integer value => throw (.mismatch (.value (.integer value) expected))
        | value => throw (.mismatch (.type value.found expected))
      else
        mismatchHere expected

/-- Read the colon after a key. -/
def colon : Reader Unit := do
  match ← peek with
  | none => throw (.ended .object)
  | some next => if next == byte ':' then skip else throw .expectedColon

/-- Read the word for nothing. -/
def unit : Reader Unit := do
  if (← peek) == some (byte 'n') then word "null".toList else mismatchHere "unit"

/-! ## Lists and objects -/

/-- Whether another element of a list comes next; the comma before it is passed
over. -/
def nextElement (isFirst : Bool) : Reader Bool := do
  match ← peek with
  | none => throw (.ended .list)
  | some next =>
      if next == byte ']' then
        return false
      else if isFirst then
        return true
      else if next == byte ',' then
        skip
        match ← peek with
        | none => throw (.ended .value)
        | some next => if next == byte ']' then throw .trailingComma else return true
      else
        throw .expectedListEnd

/-- Read the end of a list. -/
def endList : Reader Unit := do
  match ← peek with
  | none => throw (.ended .list)
  | some next =>
      if next == byte ']' then
        skip
      else if next == byte ',' then
        skip
        if (← peek) == some (byte ']') then throw .trailingComma else throw .trailingCharacters
      else
        throw .trailingCharacters

/-- Whether another member of an object comes next; the comma before it is passed
over. -/
def nextMember (isFirst : Bool) : Reader Bool := do
  match ← peek with
  | none => throw (.ended .object)
  | some next =>
      if next == byte '\x7d' then
        return false
      else if isFirst then
        if next == byte '"' then return true else throw .keyIsNoString
      else if next == byte ',' then
        skip
        match ← peek with
        | none => throw (.ended .value)
        | some next =>
            if next == byte '"' then return true
            else if next == byte '\x7d' then throw .trailingComma
            else throw .keyIsNoString
      else
        throw .expectedObjectEnd

/-- Read the end of an object. -/
def endObject : Reader Unit := do
  match ← peek with
  | none => throw (.ended .object)
  | some next =>
      if next == byte '\x7d' then skip
      else if next == byte ',' then throw .trailingComma
      else throw .trailingCharacters

/-- The elements of a list after those read so far, last one first; at most `bound`
of them. -/
def elementsFrom {α : Type} (element : Reader α) : Nat → List α → Reader (List α)
  | 0, done => return done.reverse
  | bound + 1, done => do
      if ← nextElement done.isEmpty then elementsFrom element bound ((← element) :: done)
      else return done.reverse

/-- Read a list.  Each element takes a byte, which bounds their number. -/
def list {α : Type} (element : Reader α) : Reader (List α) := do
  if (← peek) == some (byte '[') then
    skip
    let elements ← elementsFrom element ((← get).length + 1) []
    endList
    return elements
  else
    mismatchHere "a sequence"

/-- Read one of some names: a string, or an object with the name as its only key and
nothing as its value. -/
def variant {α : Type} (ofName? : String → Option α) (names : List String) : Reader α := do
  let name : Reader α := do
    let name ← stringOr "variant identifier"
    match ofName? name with
    | some value => return value
    | none => throw (.mismatch (.variant name names))
  match ← peek with
  | none => throw (.ended .value)
  | some next =>
      if next == byte '"' then
        name
      else if next == byte '\x7b' then
        skip
        let value ← name
        colon
        unit
        match ← peek with
        | none => throw (.ended .object)
        | some next =>
            if next == byte '\x7d' then
              skip
              return value
            else
              throw .expectedValue
      else
        throw .expectedValue

end Reader

/-! ## Shapes -/

/-- A field of data of type `α`: its name, and how its value is read and put into the
data. -/
structure Field (α : Type) where
  name : String
  read : α → Reader α

/-- A named list of fields. -/
structure Shape (α : Type) where
  name : String
  fields : List (Field α)

namespace Shape

variable {α : Type}

/-- What is expected where data of a shape are expected. -/
def expected (shape : Shape α) : String :=
  "struct " ++ shape.name

/-- What is expected of a list that stands for data of a shape. -/
def expectedLength (shape : Shape α) : String :=
  shape.expected ++ s!" with {shape.fields.length} elements"

/-- Read the values of the fields from a list, after `count` of them. -/
def readElements (shape : Shape α) (count : Nat) (data : α) : List (Field α) → Reader α
  | [] => return data
  | field :: fields => do
      if ← Reader.nextElement (count == 0) then
        readElements shape (count + 1) (← field.read data) fields
      else
        throw (.mismatch (.length count shape.expectedLength))

/-- Read members of an object after those with the names `given`; at most `bound` of
them. -/
def readMembers (shape : Shape α) : Nat → Bool → List String → α → Reader α
  | 0, _, _, data => return data
  | bound + 1, isFirst, given, data => do
      if ← Reader.nextMember isFirst then
        let name ← Reader.string
        match shape.fields.find? (·.name == name) with
        | some field =>
            if given.contains name then throw (.mismatch (.duplicateField name))
            Reader.colon
            readMembers shape bound false (name :: given) (← field.read data)
        | none =>
            Reader.colon
            Reader.skipValue
            readMembers shape bound false given data
      else
        match shape.fields.find? (!given.contains ·.name) with
        | some field => throw (.mismatch (.missingField field.name))
        | none => return data

/-- Read data of a shape into `start`. -/
def read (shape : Shape α) (start : α) : Reader α := do
  match ← Reader.peek with
  | none => throw (.ended .value)
  | some next =>
      if next == byte '[' then
        Reader.skip
        let data ← shape.readElements 0 start shape.fields
        Reader.endList
        return data
      else if next == byte '\x7b' then
        Reader.skip
        let data ← shape.readMembers ((← get).length + 1) true [] start
        Reader.endObject
        return data
      else
        Reader.mismatchHere shape.expected

end Shape

end ProgramGraph.Json
