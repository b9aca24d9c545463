import ProgramGraph.Kind
import ProgramGraph.Source.Span

/-!
# Lexemes

A lexeme is the smallest unit of source text: a bracket, or a leaf, which is a
word, a single punctuation mark or a literal.  A mark is *joint* when another
mark follows it directly; marks of several characters, such as arrows, are joint
marks followed by a last one.
-/

namespace ProgramGraph.Source

/-- The three pairs of brackets. -/
inductive Bracket where
  | round
  | curly
  | square
  deriving DecidableEq, Repr, Inhabited

namespace Bracket

/-- The opening bracket as text. -/
def opening : Bracket → String
  | round => "("
  | curly => "\x7b"
  | square => "["

/-- The closing bracket as text. -/
def closing : Bracket → String
  | round => ")"
  | curly => "\x7d"
  | square => "]"

/-- The pair that a character opens. -/
def ofOpening? : Char → Option Bracket
  | '(' => some round
  | '{' => some curly
  | '[' => some square
  | _ => none

/-- The pair that a character closes. -/
def ofClosing? : Char → Option Bracket
  | ')' => some round
  | '}' => some curly
  | ']' => some square
  | _ => none

end Bracket

/-- The forms of leaves. -/
inductive LeafForm where
  /-- An identifier or a keyword. -/
  | word
  /-- A punctuation mark of one character. -/
  | mark (joint : Bool)
  /-- A literal as it is written. -/
  | literal
  deriving DecidableEq, Repr, Inhabited

/-- A lexeme that is no bracket. -/
structure Leaf where
  form : LeafForm
  text : String
  span : Span
  deriving DecidableEq, Repr, Inhabited

/-- A lexeme. -/
inductive Lexeme where
  | leaf (leaf : Leaf)
  | opening (bracket : Bracket) (span : Span)
  | closing (bracket : Bracket) (span : Span)
  deriving DecidableEq, Repr, Inhabited

/-- The words that are no identifiers. -/
def keywords : List String :=
  ["_", "abstract", "as", "async", "await", "become", "box", "break", "const", "continue",
    "crate", "do", "dyn", "else", "enum", "extern", "false", "final", "fn", "for", "if", "impl",
    "in", "let", "loop", "macro", "match", "mod", "move", "mut", "override", "priv", "pub", "ref",
    "return", "self", "Self", "static", "struct", "super", "trait", "true", "try", "type",
    "typeof", "unsafe", "unsized", "use", "virtual", "where", "while", "yield"]

/-- Whether a word is reserved. -/
def isKeyword (word : String) : Bool :=
  keywords.contains word

namespace Lexeme

/-- The text of a lexeme. -/
def text : Lexeme → String
  | .leaf unit => unit.text
  | .opening bracket _ => bracket.opening
  | .closing bracket _ => bracket.closing

/-- The stretch of source that a lexeme covers. -/
def span : Lexeme → Span
  | .leaf unit => unit.span
  | .opening _ place => place
  | .closing _ place => place

/-- The kind of the node that stands for a lexeme: words that are no keywords
are identifiers, and all else is a token. -/
def nodeKind : Lexeme → NodeKind
  | .leaf ⟨.word, text, _⟩ => if isKeyword text then .token else .identifierToken
  | _ => .token

end Lexeme

end ProgramGraph.Source
