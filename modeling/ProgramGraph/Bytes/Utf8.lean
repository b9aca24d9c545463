/-!
# Characters as bytes

UTF-8 writes a character as one to four bytes.  The first byte tells how many
follow it and bounds the second one; the others lie in one range.  These bounds
leave each character exactly one written form.

`decode` reads what `encode` writes, and answers with the first fault otherwise:
where it begins, and how many bytes are to blame or that bytes are missing.
-/

namespace ProgramGraph.Utf8

/-! ## Writing -/

/-- The bytes of a character. -/
def encodeChar (c : Char) : List UInt8 :=
  let value := c.toNat
  let tail (shift : Nat) : UInt8 := UInt8.ofNat (0x80 + value / shift % 64)
  if value < 0x80 then [UInt8.ofNat value]
  else if value < 0x800 then [UInt8.ofNat (0xC0 + value / 64), tail 1]
  else if value < 0x10000 then [UInt8.ofNat (0xE0 + value / 4096), tail 64, tail 1]
  else [UInt8.ofNat (0xF0 + value / 262144), tail 4096, tail 64, tail 1]

/-- The bytes of a sequence of characters. -/
def encode (text : List Char) : List UInt8 :=
  text.flatMap encodeChar

/-- The bytes of a text. -/
def bytesOf (text : String) : List UInt8 :=
  encode text.toList

/-! ## Reading -/

/-- What is wrong with bytes that stand for no text. -/
inductive Fault where
  /-- The bytes of this number from this index on begin no character. -/
  | invalid (length index : Nat)
  /-- The bytes end within the character that begins at this index. -/
  | incomplete (index : Nat)
  deriving DecidableEq, Repr

/-- The text of a fault. -/
def Fault.message : Fault → String
  | invalid length index => s!"invalid utf-8 sequence of {length} bytes from index {index}"
  | incomplete index => s!"incomplete utf-8 byte sequence from index {index}"

/-- Whether a byte lies in a range. -/
def between (low high : Nat) (byte : UInt8) : Bool :=
  low ≤ byte.toNat && byte.toNat ≤ high

/-- Whether a byte continues a character. -/
def isTail (byte : UInt8) : Bool :=
  between 0x80 0xBF byte

/-- Whether the second byte of a character may follow its first byte. -/
def canFollow (first second : UInt8) : Bool :=
  if first == 0xE0 then between 0xA0 0xBF second
  else if first == 0xED then between 0x80 0x9F second
  else if first == 0xF0 then between 0x90 0xBF second
  else if first == 0xF4 then between 0x80 0x8F second
  else isTail second

/-- The character that a first byte and the bytes after it stand for; `mark` is
what the first byte adds to tell how many follow. -/
def join (mark : Nat) (first : UInt8) (tail : List UInt8) : Char :=
  Char.ofNat (tail.foldl (fun value byte => value * 64 + (byte.toNat - 0x80)) (first.toNat - mark))

/-- Put a character before the rest of a text. -/
def prepend (c : Char) (rest : Except Fault (List Char)) : Except Fault (List Char) :=
  rest.map (c :: ·)

/-- Read bytes, the first of which has the index `index`. -/
def decodeFrom (index : Nat) : List UInt8 → Except Fault (List Char)
  | [] => .ok []
  | first :: rest =>
      if between 0x00 0x7F first then
        prepend (join 0 first []) (decodeFrom (index + 1) rest)
      else if between 0xC2 0xDF first then
        match rest with
        | [] => .error (.incomplete index)
        | second :: rest =>
            if !isTail second then .error (.invalid 1 index)
            else prepend (join 0xC0 first [second]) (decodeFrom (index + 2) rest)
      else if between 0xE0 0xEF first then
        match rest with
        | [] => .error (.incomplete index)
        | second :: rest =>
            if !canFollow first second then .error (.invalid 1 index)
            else
              match rest with
              | [] => .error (.incomplete index)
              | third :: rest =>
                  if !isTail third then .error (.invalid 2 index)
                  else prepend (join 0xE0 first [second, third]) (decodeFrom (index + 3) rest)
      else if between 0xF0 0xF4 first then
        match rest with
        | [] => .error (.incomplete index)
        | second :: rest =>
            if !canFollow first second then .error (.invalid 1 index)
            else
              match rest with
              | [] => .error (.incomplete index)
              | third :: rest =>
                  if !isTail third then .error (.invalid 2 index)
                  else
                    match rest with
                    | [] => .error (.incomplete index)
                    | fourth :: rest =>
                        if !isTail fourth then .error (.invalid 3 index)
                        else
                          prepend (join 0xF0 first [second, third, fourth])
                            (decodeFrom (index + 4) rest)
      else
        .error (.invalid 1 index)

/-- The characters that bytes stand for. -/
def decode (bytes : List UInt8) : Except Fault (List Char) :=
  decodeFrom 0 bytes

/-- The text that bytes stand for. -/
def textOf (bytes : List UInt8) : Except Fault String :=
  (decode bytes).map String.ofList

/-! ## Laws -/

@[simp]
theorem encode_nil : encode [] = [] :=
  rfl

@[simp]
theorem encode_cons (c : Char) (text : List Char) :
    encode (c :: text) = encodeChar c ++ encode text :=
  rfl

@[simp]
theorem decode_nil : decode [] = .ok [] :=
  rfl

end ProgramGraph.Utf8
