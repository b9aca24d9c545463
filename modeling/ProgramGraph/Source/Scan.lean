import ProgramGraph.Source.Lexeme
import ProgramGraph.Source.Quoted

/-!
# From characters to lexemes

A text is cut into chunks: blanks and plain comments, which leave nothing behind;
documentation comments, which stand for an attribute; brackets; and leaves.  At
each place the first form that fits is taken, in this order: blank, plain
comment, documentation comment, bracket, literal, mark, word.  Where nothing fits
the scan ends with the position of the offending character.

A documentation comment reads as the lexemes of `#[doc = "…"]`, or of `#![doc = "…"]`
if it is about what encloses it.  Its lexemes cover the whole comment, except for
the brackets, which cover its first and its last character.
-/

namespace ProgramGraph.Source

open ProgramGraph.Unicode

/-- What stands at the front of a text, with its length. -/
inductive Chunk where
  /-- Blanks or a plain comment. -/
  | blank (length : Nat)
  /-- A documentation comment with the text between its marks. -/
  | comment (inner : Bool) (text : List Char) (length : Nat)
  | opening (bracket : Bracket)
  | closing (bracket : Bracket)
  | leaf (form : LeafForm) (length : Nat)

namespace Chunk

/-- How many characters a chunk takes. -/
def length : Chunk → Nat
  | blank length => length
  | comment _ _ length => length
  | opening _ => 1
  | closing _ => 1
  | leaf _ length => length

/-- The length of the rest of a line, with the number of its characters that
belong to the line end: the carriage return of a line that ends in carriage
return and line feed belongs to the end and is passed over; a line feed is
not. -/
def lineLength (length : Nat) : List Char → Nat × Nat
  | [] => (length, 0)
  | c :: text =>
      if c == '\n' then (length, 0)
      else if c == '\r' && text.head? == some '\n' then (length, 1)
      else lineLength (length + 1) text

/-- The length of the rest of a block comment, in which block comments nest;
`depth` of them are open, and `skip` tells that the character was read together
with the one before. -/
def blockLength (depth : Nat) (skip : Bool) (length : Nat) : List Char → Option Nat
  | [] => none
  | c :: text =>
      if skip then
        if depth == 0 then some (length + 1) else blockLength depth false (length + 1) text
      else if c == '/' && text.head? == some '*' then
        blockLength (depth + 1) true (length + 1) text
      else if c == '*' && text.head? == some '/' then
        blockLength (depth - 1) true (length + 1) text
      else
        blockLength depth false (length + 1) text

/-- Whether every carriage return of a text comes before a line feed. -/
def hasNoBareReturn : List Char → Bool
  | [] => true
  | c :: text => (c != '\r' || text.head? == some '\n') && hasNoBareReturn text

/-- A documentation comment, unless it holds a bare carriage return. -/
def commentOf (inner : Bool) (text : List Char) (length : Nat) : Option Chunk :=
  if hasNoBareReturn text then some (comment inner text length) else none

/-- The documentation comment of one line whose mark of three characters starts
`text`. -/
def lineComment (inner : Bool) (text : List Char) : Option Chunk :=
  let (length, ending) := lineLength 0 (text.drop 3)
  commentOf inner ((text.drop 3).take length) (length + 3 + ending)

/-- The documentation comment between block marks that starts `text`. -/
def blockComment (inner : Bool) (text : List Char) : Option Chunk :=
  (blockLength 0 false 0 text).bind fun length =>
    commentOf inner ((text.drop 3).take (length - 5)) length

/-- The comment or blank at the front of a text. -/
def comment? (text : List Char) : Option Chunk :=
  match text with
  | '/' :: '/' :: '/' :: '/' :: _ => some (plainLine text)
  | '/' :: '/' :: '/' :: _ => lineComment false text
  | '/' :: '/' :: '!' :: _ => lineComment true text
  | '/' :: '/' :: _ => some (plainLine text)
  | '/' :: '*' :: '*' :: '/' :: _ => some (blank 4)
  | '/' :: '*' :: '*' :: '*' :: _ => (blockLength 0 false 0 text).map blank
  | '/' :: '*' :: '*' :: _ => blockComment false text
  | '/' :: '*' :: '!' :: _ => blockComment true text
  | '/' :: '*' :: _ => (blockLength 0 false 0 text).map blank
  | _ => none
where
  plainLine (text : List Char) : Chunk :=
    let (length, ending) := lineLength 0 text
    blank (length + ending)

/-- The characters that are punctuation marks. -/
def marks : List Char :=
  ['~', '!', '@', '#', '$', '%', '^', '&', '*', '-', '=', '+', '|', ';', ':', ',', '<', '.',
    '>', '/', '?', '\'']

/-- Whether a mark stands at the front of a text.  The slash of a comment is no
mark. -/
def startsWithMark : List Char → Bool
  | '/' :: '/' :: _ => false
  | '/' :: '*' :: _ => false
  | c :: _ => marks.contains c
  | [] => false

/-- The length of the identifier at the front of a text, raw identifiers
included.  The words that stand for a place cannot be raw. -/
def wordLength : List Char → Option Nat
  | 'r' :: '#' :: text =>
      (identifierLength text).bind fun length =>
        let name := String.ofList (text.take length)
        if ["_", "super", "self", "Self", "crate"].contains name then none else some (length + 2)
  | text => identifierLength text

/-- Whether a text begins like a quoted literal, so that no word can be taken from
it. -/
def startsLikeQuoted : List Char → Bool
  | 'r' :: '"' :: _ => true
  | 'r' :: '#' :: '"' :: _ => true
  | 'r' :: '#' :: '#' :: _ => true
  | 'b' :: '"' :: _ => true
  | 'b' :: '\'' :: _ => true
  | 'b' :: 'r' :: '"' :: _ => true
  | 'b' :: 'r' :: '#' :: _ => true
  | 'c' :: '"' :: _ => true
  | 'c' :: 'r' :: '"' :: _ => true
  | 'c' :: 'r' :: '#' :: _ => true
  | _ => false

/-- The length of the literal at the front of a text. -/
def literalLength (text : List Char) : Option Nat :=
  match Quoted.length? text with
  | some length => some length
  | none =>
      match Number.fractionLength text with
      | some length => some length
      | none => Number.wholeLength text

/-- The mark at the front of a text.  An apostrophe is a mark only before a word,
and only if no quote or number sign comes directly after that word; it is always
joint. -/
def mark? : List Char → Option Chunk
  | '\'' :: text =>
      (wordLength text).bind fun length =>
        let raw := match text with
          | 'r' :: '#' :: _ => true
          | _ => false
        let next := text[length]?
        if next == some '\'' || (next == some '#' && !raw) then none
        else some (leaf (.mark true) 1)
  | text =>
      if startsWithMark text then some (leaf (.mark (startsWithMark (text.drop 1))) 1) else none

/-- The written form of a literal that could not be formed. -/
def brokenLiteral : List Char :=
  "(/*ERROR*/)".toList

/-- The chunk at the front of a text. -/
def next? (text : List Char) : Option Chunk :=
  match text with
  | [] => none
  | c :: rest =>
      if isSourceBlank c then
        some (blank ((rest.takeWhile isSourceBlank).length + 1))
      else if let some chunk := comment? text then
        some chunk
      else if brokenLiteral.isPrefixOf text then
        some (leaf .literal brokenLiteral.length)
      else if let some bracket := Bracket.ofOpening? c then
        some (opening bracket)
      else if let some bracket := Bracket.ofClosing? c then
        some (closing bracket)
      else if let some length := literalLength text then
        some (leaf .literal length)
      else if let some chunk := mark? text then
        some chunk
      else if startsLikeQuoted text then
        none
      else
        (wordLength text).map (leaf .word)

/-- The lexemes of a documentation comment. -/
def commentLexemes (inner : Bool) (text : List Char) (span : Span) : List Lexeme :=
  let leaf (form : LeafForm) (text : String) : Lexeme := .leaf ⟨form, text, span⟩
  [leaf (.mark false) "#"] ++ (if inner then [leaf (.mark false) "!"] else []) ++
    [.opening .square span.head, leaf .word "doc", leaf (.mark false) "=",
      leaf .literal (String.ofList (Quoted.quote text)), .closing .square span.tail]

/-- The lexemes of the chunk at the front of `text`, which stands at
`position`. -/
def lexemes (text : List Char) (position : Nat) : Chunk → List Lexeme
  | blank _ => []
  | comment inner words length => commentLexemes inner words ⟨position, position + length⟩
  | opening bracket => [.opening bracket ⟨position, position + 1⟩]
  | closing bracket => [.closing bracket ⟨position, position + 1⟩]
  | leaf form length =>
      [.leaf ⟨form, String.ofList (text.take length), ⟨position, position + length⟩⟩]

end Chunk

/-- The lexemes of a text whose first character stands at `position`, of which
`skip` characters belong to a chunk that was read before, after the lexemes
`done`, last one first; and the position where the scan ends early, if it
does. -/
def scanFrom (done : List Lexeme) (skip position : Nat) :
    List Char → List Lexeme × Option Nat
  | [] => (done.reverse, none)
  | c :: text =>
      match skip with
      | skip + 1 => scanFrom done skip (position + 1) text
      | 0 =>
          match Chunk.next? (c :: text) with
          | none => (done.reverse, some position)
          | some chunk =>
              scanFrom ((chunk.lexemes (c :: text) position).reverse ++ done)
                (chunk.length - 1) (position + 1) text

/-- The mark that may stand before a text to tell its encoding. -/
def byteOrderMark : Char :=
  '\ufeff'

/-- The lexemes of a text up to the place where the scan ends early, if it does.
One byte order mark is passed over. -/
def scan (text : List Char) : List Lexeme × Option Nat :=
  match text with
  | [] => ([], none)
  | c :: rest => if c == byteOrderMark then scanFrom [] 0 1 rest else scanFrom [] 0 0 (c :: rest)

end ProgramGraph.Source
