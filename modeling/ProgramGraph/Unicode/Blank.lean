import ProgramGraph.Unicode.Ranges

/-!
# Blank characters

The characters of the property White_Space separate words.  Source text also
treats the two directional marks as blank.
-/

namespace ProgramGraph.Unicode

/-- The ranges of White_Space. -/
def blanks : List (Nat × Nat) :=
  [(0x9, 0xD), (0x20, 0x20), (0x85, 0x85), (0xA0, 0xA0), (0x1680, 0x1680), (0x2000, 0x200A),
   (0x2028, 0x2029), (0x202F, 0x202F), (0x205F, 0x205F), (0x3000, 0x3000)]

/-- Whether a character has the property White_Space. -/
def isBlank (c : Char) : Bool :=
  inRanges blanks c.toNat

/-- Whether a character is blank in source text: White_Space, the left-to-right
mark or the right-to-left mark. -/
def isSourceBlank (c : Char) : Bool :=
  isBlank c || c == '\u200e' || c == '\u200f'

/-- The text without the blanks at its two ends. -/
def trim (text : List Char) : List Char :=
  ((text.dropWhile isBlank).reverse.dropWhile isBlank).reverse

/-- The maximal runs of characters that are not blank; `word` holds the
characters of the run in progress, last one first. -/
def wordsFrom (word : List Char) : List Char → List (List Char)
  | [] => if word.isEmpty then [] else [word.reverse]
  | c :: text =>
      if isBlank c then
        if word.isEmpty then wordsFrom [] text else word.reverse :: wordsFrom [] text
      else
        wordsFrom (c :: word) text

/-- The words of a text, which blanks separate. -/
def words (text : List Char) : List (List Char) :=
  wordsFrom [] text

/-- The words of a text with one space between neighbours. -/
def squeeze (text : List Char) : List Char :=
  [' '].intercalate (words text)

end ProgramGraph.Unicode
