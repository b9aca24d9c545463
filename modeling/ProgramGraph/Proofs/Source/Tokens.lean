import Mathlib.Data.List.Basic
import ProgramGraph.Proofs.Source.Regrouping

/-!
# Trees told by tokens

A graph keeps three things of a lexeme: its text, the kind of its node and where it lies.  They
are its token.  Whether a lexeme is a bracket, a word, a mark or a literal has to be read off from
them, and whether a mark is joint from the token behind it.

Trees whose leaves read as what they are can be told by their tokens as by their lexemes: the
tokens show each leaf once and in order, their delimiters are nested, and read and grouped they
are the trees again, with groups without brackets spliced.  What tokens do not keep is whether
marks are joint: this is told only where marks are spaced as in a text.
-/

namespace ProgramGraph.Source

/-- What a graph keeps of a lexeme. -/
structure Token where
  text : String
  kind : NodeKind
  span : Span
  deriving DecidableEq, Repr

/-- What a graph keeps of this lexeme. -/
def Lexeme.token (lexeme : Lexeme) : Token where
  text := lexeme.text
  kind := lexeme.nodeKind
  span := lexeme.span

/-! ## Reading tokens -/

/-- The delimiter that a text is. -/
def Delimiter.ofText? (text : String) : Option Delimiter :=
  match text.toList with
  | [c] => (Bracket.ofOpening? c).map .opening <|> (Bracket.ofClosing? c).map .closing
  | _ => none

/-- Whether a text is a punctuation mark. -/
def isPunctuation (text : String) : Bool :=
  match text.toList with
  | [c] => Chunk.marks.contains c
  | _ => false

namespace Token

/-- The delimiter that a token stands for. -/
def delimiter? (token : Token) : Option Delimiter :=
  if token.kind = .token then Delimiter.ofText? token.text else none

/-- The form of the leaf that a token stands for, given whether it is joint. -/
def form (joint : Bool) (token : Token) : LeafForm :=
  if token.kind = .identifierToken || isKeyword token.text then .word
  else if isPunctuation token.text then .mark joint
  else .literal

/-- The lexeme that a token stands for, given whether it is joint. -/
def lexeme (joint : Bool) (token : Token) : Lexeme :=
  match token.delimiter? with
  | some (.opening bracket) => .opening bracket token.span
  | some (.closing bracket) => .closing bracket token.span
  | none => .leaf ⟨token.form joint, token.text, token.span⟩

/-- Whether a token begins with a punctuation character at a position.  The number sign that
stands for a documentation comment does not: it covers the whole comment. -/
def beginsMark (position : Nat) (token : Token) : Bool :=
  token.span == ⟨position, position + token.text.length⟩ &&
    token.text.toList.head?.any Chunk.marks.contains

/-- Whether a mark is joint, by the token behind it: an apostrophe always is, and any other mark
is if the next one follows directly. -/
def isJoint (token : Token) (next : Option Token) : Bool :=
  token.text == "'" || next.any (·.beginsMark token.span.last)

/-- The lexemes that tokens stand for. -/
def read : List Token → List Lexeme
  | [] => []
  | token :: tokens => token.lexeme (token.isJoint tokens.head?) :: read tokens

end Token

/-! ## Spacing -/

/-- A form that is joint as given, if it is that of a mark. -/
def LeafForm.spaced (joint : Bool) : LeafForm → LeafForm
  | .mark _ => .mark joint
  | form => form

/-- A leaf that is joint as given, if it is a mark. -/
def Leaf.spaced (joint : Bool) (unit : Leaf) : Leaf :=
  { unit with form := unit.form.spaced joint }

namespace Lexeme

/-- A lexeme that is joint as given, if it is a mark. -/
def spaced (joint : Bool) : Lexeme → Lexeme
  | .leaf unit => .leaf (unit.spaced joint)
  | lexeme => lexeme

/-- Lexemes are spaced as in a text: each mark is joint just if the next lexeme makes it so. -/
def Spaced : List Lexeme → Prop
  | [] => True
  | lexeme :: lexemes =>
      lexeme.spaced (lexeme.token.isJoint (lexemes.head?.map token)) = lexeme ∧ Spaced lexemes

instance decidableSpaced : (lexemes : List Lexeme) → Decidable (Spaced lexemes)
  | [] => .isTrue trivial
  | _ :: lexemes =>
      have := decidableSpaced lexemes
      inferInstanceAs (Decidable (_ ∧ _))

end Lexeme

namespace TokenTree

mutual

/-- A tree without the spacing of its marks. -/
def loose : TokenTree → TokenTree
  | .leaf unit => .leaf (unit.spaced false)
  | .group bracket opening closing trees => .group bracket opening closing (looseAll trees)

/-- Trees without the spacing of their marks. -/
def looseAll : List TokenTree → List TokenTree
  | [] => []
  | tree :: trees => tree.loose :: looseAll trees

end

/-- An open group without the spacing of its marks. -/
def Frame.loose (frame : Frame) : Frame :=
  { frame with before := looseAll frame.before }

end TokenTree

/-! ## Leaves that read as what they are -/

/-- Whether a leaf reads as what it is: a mark is one punctuation character, and a literal is no
delimiter, no punctuation mark and no keyword.  Every word does. -/
def Leaf.isLegible (unit : Leaf) : Bool :=
  match unit.form with
  | .word => true
  | .mark _ => isPunctuation unit.text
  | .literal =>
      (Delimiter.ofText? unit.text).isNone && !isPunctuation unit.text && !isKeyword unit.text

namespace Leaf

variable {unit : Leaf}

/-- A literal that reads as one. -/
theorem isLegible_literal {text : String} {span : Span} :
    isLegible ⟨.literal, text, span⟩ ↔
      Delimiter.ofText? text = none ∧ isPunctuation text = false ∧ isKeyword text = false := by
  simp [isLegible, and_assoc]

end Leaf

namespace Lexeme

variable {lexeme : Lexeme} {lexemes others : List Lexeme}

/-- Whether a lexeme reads as what it is. -/
def isLegible : Lexeme → Bool
  | .leaf unit => unit.isLegible
  | _ => true

end Lexeme

/-! ## Trees and what is told of them -/

namespace TokenTree

/-- The tokens of trees that are written out. -/
def tokens (trees : List TokenTree) : List Token :=
  (flatten trees).map Lexeme.token

variable {trees other : List TokenTree}

end TokenTree

end ProgramGraph.Source
