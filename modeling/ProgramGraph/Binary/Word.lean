import ProgramGraph.Bytes.Utf8
import ProgramGraph.Mismatch

/-!
# Words and texts as bytes

Numbers are written as a fixed count of bytes, the least one first.  A text is
written as the number of its bytes, in eight bytes, and the bytes after that; a
list in the same way as its length and its elements.
-/

namespace ProgramGraph.Binary

/-- Why bytes cannot be read. -/
inductive Fault where
  /-- There are too few bytes. -/
  | ended
  /-- The bytes of a text stand for no text. -/
  | text (cause : Utf8.Fault)
  /-- The data are not what is asked for. -/
  | mismatch (cause : Mismatch)
  deriving DecidableEq, Repr

/-- The text of a fault. -/
def Fault.message : Fault → String
  | ended => "unexpected end of file"
  | text cause => "string is not valid utf8: " ++ cause.message
  | mismatch cause => cause.message

/-! ## Writing -/

/-- A number in `count` bytes, the least one first. -/
def writeNumber : Nat → Nat → List UInt8
  | 0, _ => []
  | count + 1, value => UInt8.ofNat (value % 256) :: writeNumber count (value / 256)

/-- A number of 64 bits. -/
def writeLong (value : Nat) : List UInt8 :=
  writeNumber 8 value

/-- A text after the number of its bytes. -/
def writeText (text : String) : List UInt8 :=
  let bytes := Utf8.bytesOf text
  writeLong bytes.length ++ bytes

/-- The elements of a list after their number. -/
def writeList {α : Type} (write : α → List UInt8) (elements : List α) : List UInt8 :=
  writeLong elements.length ++ elements.flatMap write

/-! ## Reading -/

/-- A step of reading. -/
abbrev Reader := StateT (List UInt8) (Except Fault)

/-- Read one byte. -/
def readByte : Reader UInt8 := do
  match ← get with
  | [] => throw .ended
  | byte :: bytes =>
      set bytes
      return byte

/-- Read a number in `count` bytes. -/
def readNumber : Nat → Reader Nat
  | 0 => return 0
  | count + 1 => do
      let byte ← readByte
      return byte.toNat + 256 * (← readNumber count)

/-- Read a number of 64 bits. -/
def readLong : Reader Nat :=
  readNumber 8

/-- Read bytes as they are. -/
def readBytes (count : Nat) : Reader (List UInt8) := do
  let bytes ← get
  if bytes.length < count then
    throw .ended
  else
    set (bytes.drop count)
    return bytes.take count

/-- Read a text. -/
def readText : Reader String := do
  match Utf8.textOf (← readBytes (← readLong)) with
  | .ok text => return text
  | .error cause => throw (.text cause)

/-- Read a number of elements. -/
def readElements {α : Type} (read : Reader α) : Nat → Reader (List α)
  | 0 => return []
  | count + 1 => do
      let element ← read
      return element :: (← readElements read count)

/-- Read a list. -/
def readList {α : Type} (read : Reader α) : Reader (List α) := do
  readElements read (← readLong)

end ProgramGraph.Binary
