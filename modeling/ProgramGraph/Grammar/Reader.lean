import ProgramGraph.Outline
import ProgramGraph.Source.TokenTree

/-!
# Reading token trees

A reader takes token trees off the front of one level of a text and answers with
what it read, or fails with the position that is to blame: the first tree that
does not fit, or the end of the level if trees are missing.

Trees that are left over at the end of a group do not fail at once.  The first of
them is remembered, and it fails the whole text if nothing else does.

Readers of nested syntax call each other through `Nested`, which answers for each
`Goal`; the levels of nesting are tied together in the module of the whole
grammar.
-/

namespace ProgramGraph.Grammar

open Source

/-- A place in a level of token trees. -/
structure Cursor where
  /-- The trees that are still to be read. -/
  rest : List TokenTree
  /-- The position to blame when trees are missing. -/
  limit : Nat
  /-- The position after the last tree that was read. -/
  last : Nat
  /-- Whether that tree was a group in curly brackets. -/
  curly : Bool
  /-- The first tree that was left over in a group. -/
  leftover : Option Nat
  deriving Inhabited

/-- A step of reading. -/
abbrev Reader := StateT Cursor (Except Nat)

/-- The position of the next tree, or of the end of the level. -/
def Cursor.position (cursor : Cursor) : Nat :=
  match cursor.rest with
  | tree :: _ => tree.first
  | [] => cursor.limit

/-! ## Looking ahead -/

/-- A look at the trees that come next. -/
abbrev Look := List TokenTree → Bool

/-- Whether the marks of a symbol come next, joined to each other. -/
def marksNext : List Char → Look
  | [], _ => false
  | [c], .leaf ⟨.mark _, text, _⟩ :: _ => c != '\'' && text == c.toString
  | c :: marks, .leaf ⟨.mark true, text, _⟩ :: trees =>
      c != '\'' && text == c.toString && marksNext marks trees
  | _, _ => false

/-- Whether a symbol comes next.  More marks may follow: `-` comes next where `->`
does. -/
def symbolNext (symbol : String) : Look :=
  marksNext symbol.toList

/-- Whether a given word comes next. -/
def wordNext (word : String) : Look
  | .leaf ⟨.word, text, _⟩ :: _ => text == word
  | _ => false

/-- Whether a word of any kind comes next. -/
def anyWordNext : Look
  | .leaf ⟨.word, _, _⟩ :: _ => true
  | _ => false

/-- Whether a word that is no keyword comes next. -/
def identifierNext : Look
  | .leaf ⟨.word, text, _⟩ :: _ => !isKeyword text
  | _ => false

/-- Whether a lifetime comes next: an apostrophe joined to a word. -/
def lifetimeNext : Look
  | .leaf ⟨.mark true, "'", _⟩ :: .leaf ⟨.word, _, _⟩ :: _ => true
  | _ => false

/-- Whether a group in given brackets comes next. -/
def groupNext (bracket : Bracket) : Look
  | .group (some other) _ _ _ :: _ => other == bracket
  | _ => false

/-- Whether a literal is a number. -/
def isNumber (text : String) : Bool :=
  match text.toList with
  | c :: _ => c.isDigit
  | [] => false

/-- Whether a literal, a truth value or a negative number comes next. -/
def literalNext : Look
  | .leaf ⟨.literal, _, _⟩ :: _ => true
  | .leaf ⟨.word, text, _⟩ :: _ => text == "true" || text == "false"
  | .leaf ⟨.mark _, "-", _⟩ :: .leaf ⟨.literal, text, _⟩ :: _ => isNumber text
  | _ => false

/-- Whether a string comes next. -/
def stringNext : Look
  | .leaf ⟨.literal, text, _⟩ :: _ =>
      text.startsWith "\"" || text.startsWith "r"
  | _ => false

/-- Whether a look succeeds at one of the words. -/
def oneOfWords (words : List String) : Look
  | .leaf ⟨.word, text, _⟩ :: _ => words.contains text
  | _ => false

/-- The trees after the next one, where a lifetime counts as one tree. -/
def afterNext : List TokenTree → List TokenTree
  | .leaf ⟨.mark true, "'", _⟩ :: .leaf ⟨.word, _, _⟩ :: trees => trees
  | _ :: trees => trees
  | [] => []

/-- A look at what comes after the next tree. -/
def second (look : Look) : Look :=
  fun trees => look (afterNext trees)

/-- A look at what comes after the next two trees. -/
def third (look : Look) : Look :=
  fun trees => look (afterNext (afterNext trees))

/-- One look or the other. -/
def either (left right : Look) : Look :=
  fun trees => left trees || right trees

/-- One of the looks. -/
def anyOf (looks : List Look) : Look :=
  fun trees => looks.any (· trees)

/-- One look and the other. -/
def both (left right : Look) : Look :=
  fun trees => left trees && right trees

/-- One look but not the other. -/
def without (look excluded : Look) : Look :=
  fun trees => look trees && !excluded trees

/-- Whether a symbol comes next that does not begin a longer one. -/
def symbolOnly (symbol : String) (longer : List String) : Look :=
  fun trees => symbolNext symbol trees && !longer.any (symbolNext · trees)

/-! ## Elementary readers -/

/-- Whether a look succeeds here. -/
def sees (look : Look) : Reader Bool :=
  return look (← get).rest

/-- Whether the level is read to its end. -/
def atEnd : Reader Bool :=
  return (← get).rest.isEmpty

/-- The position of what comes next. -/
def here : Reader Nat :=
  return (← get).position

/-- Fail at a position. -/
def failAt {α : Type} (position : Nat) : Reader α :=
  throw position

/-- Fail at what comes next. -/
def fail {α : Type} : Reader α := do
  failAt (← here)

/-- The stretch from a position to what was read last. -/
def spanFrom (start : Nat) : Reader Span :=
  return ⟨start, (← get).last⟩

/-- An element that begins at a position and ends with what was read last. -/
def element (form : Form) (start : Nat) (children : List Outline) : Reader Outline :=
  return .element form (← spanFrom start) [] children

/-- Take one tree. -/
def take : Reader TokenTree := do
  let cursor ← get
  match cursor.rest with
  | [] => fail
  | tree :: rest =>
      let curly := match tree with
        | .group (some .curly) _ _ _ => true
        | _ => false
      set { cursor with rest, last := tree.last, curly }
      return tree

/-- Take a number of trees. -/
def takeMany : Nat → Reader Unit
  | 0 => return ()
  | count + 1 => do
      let _ ← take
      takeMany count

/-- Take a number of trees if a look succeeds, and tell whether it did. -/
def takeIf (look : Look) (count : Nat) : Reader Bool := do
  if ← sees look then
    takeMany count
    return true
  else
    return false

/-- Take a number of trees for which a look has to succeed. -/
def takeWhere (look : Look) (count : Nat) : Reader Unit := do
  if ← sees look then takeMany count else fail

/-- Take a symbol if it comes next. -/
def optionalSymbol (symbol : String) : Reader Bool :=
  takeIf (symbolNext symbol) symbol.length

/-- Take a symbol. -/
def symbol (symbol : String) : Reader Unit :=
  takeWhere (symbolNext symbol) symbol.length

/-- Take an optional part only where it is allowed. -/
def whereAllowed (allowed : Bool) (part : Reader Bool) : Reader Bool :=
  if allowed then part else return false

/-- Take a given word if it comes next. -/
def optionalWord (word : String) : Reader Bool :=
  takeIf (wordNext word) 1

/-- Take a given word. -/
def word (word : String) : Reader Unit :=
  takeWhere (wordNext word) 1

/-- Take a word for which a look succeeds, as the occurrence of a name. -/
def nameWhere (look : Look) : Reader Outline := do
  let start ← here
  takeWhere look 1
  return .name (← spanFrom start)

/-- Take an identifier. -/
def identifier : Reader Outline :=
  nameWhere identifierNext

/-- Take a word of any kind. -/
def anyWord : Reader Outline :=
  nameWhere anyWordNext

/-- Take a lifetime, as the occurrence of the name after its apostrophe. -/
def lifetime : Reader Outline := do
  takeWhere lifetimeNext 1
  anyWord

/-- Take a lifetime if one comes next. -/
def optionalLifetime : Reader (List Outline) := do
  if ← sees lifetimeNext then return [← lifetime] else return []

/-- Take a literal, a truth value or a negative number. -/
def literal : Reader Unit := do
  if ← sees (symbolNext "-") then takeWhere literalNext 2 else takeWhere literalNext 1

/-- Take a group in given brackets and read what it holds.  What the reader leaves
over is remembered. -/
def inside {α : Type} (bracket : Bracket) (reader : Reader α) : Reader α := do
  let cursor ← get
  match cursor.rest with
  | .group (some other) opening closing trees :: rest =>
      if other = bracket then
        set { cursor with
          rest := trees, limit := closing.first, last := opening.last, curly := false }
        let value ← reader
        let inner ← get
        let leftover := match inner.leftover, inner.rest with
          | none, tree :: _ => some tree.first
          | leftover, _ => leftover
        set { cursor with rest, last := closing.last, curly := bracket == Bracket.curly, leftover }
        return value
      else
        fail
  | _ => fail

/-- Read as far as `reader` goes, or not at all if it fails. -/
def attempt {α : Type} (reader : Reader α) : Reader (Option α) := do
  let cursor ← get
  match reader.run cursor with
  | .ok (value, next) =>
      set next
      return some value
  | .error _ => return none

/-- Read ahead without taking anything. -/
def lookAhead {α : Type} (reader : Reader α) : Reader (Option α) := do
  let cursor ← get
  let value ← attempt reader
  set cursor
  return value

/-- Fail unless a look succeeds. -/
def guardThat (look : Look) : Reader Unit := do
  if ← sees look then return () else fail

/-! ## Repetition -/

/-- Go on from `value` at most `bound` times, until a step answers that it is
done. -/
def iterateFor {α : Type} (step : α → Reader (Option α)) : Nat → α → Reader α
  | 0, value => return value
  | bound + 1, value => do
      match ← step value with
      | some next => iterateFor step bound next
      | none => return value

/-- Go on from `value` until a step answers that it is done.  A step that is not
takes a tree of this level, so that the number of trees bounds the steps. -/
def iterate {α : Type} (step : α → Reader (Option α)) (value : α) : Reader α := do
  iterateFor step ((← get).rest.length + 1) value

/-- Read values until a step answers that there is none. -/
def gather {α : Type} (step : Reader (Option α)) : Reader (List α) := do
  let values ← iterate (fun values => return (← step).map (· :: values)) []
  return values.reverse

/-- Read values to the end of the level. -/
def everything {α : Type} (reader : Reader α) : Reader (List α) :=
  gather do
    if ← atEnd then return none else return some (← reader)

/-- Read values with a symbol between neighbours, and perhaps after the last one,
to the end of the level. -/
def separated {α : Type} (mark : String) (reader : Reader α) : Reader (List α) :=
  gather do
    if ← atEnd then return none
    let value ← reader
    if !(← atEnd) then symbol mark
    return some value

/-- Read values with a symbol between neighbours, until a look succeeds or the
symbol is missing. -/
def joined {α : Type} (mark : String) (stop : Look) (reader : Reader α) : Reader (List α) := do
  let (values, _) ← iterate
    (fun (values, done) => do
      if done || (← sees stop) then return none
      let value ← reader
      return some (value :: values, !(← optionalSymbol mark)))
    ([], false)
  return values.reverse

/-- Read values with a symbol between neighbours, and perhaps after the last one,
until a look succeeds. -/
def listed {α : Type} (mark : String) (stop : Look) (reader : Reader α) : Reader (List α) := do
  gather do
    if ← sees stop then return none
    let value ← reader
    if !(← sees stop) then symbol mark
    return some value

/-! ## Nested syntax -/

/-- How tightly operators bind, from the loosest on. -/
inductive Precedence where
  | loosest
  | assign
  | range
  | disjunction
  | conjunction
  | binding
  | compare
  | bitOr
  | bitXor
  | bitAnd
  | shift
  | sum
  | product
  | cast
  deriving DecidableEq, Repr, Inhabited

namespace Precedence

/-- The place of a precedence among the others. -/
def rank : Precedence → Nat
  | loosest => 0
  | assign => 1
  | range => 2
  | disjunction => 3
  | conjunction => 4
  | binding => 5
  | compare => 6
  | bitOr => 7
  | bitXor => 8
  | bitAnd => 9
  | shift => 10
  | sum => 11
  | product => 12
  | cast => 13

end Precedence

/-- What a bound of a type is. -/
inductive BoundForm where
  /-- A trait that has to be implemented. -/
  | trait
  /-- A lifetime that has to be outlived. -/
  | lifetime
  /-- A list of captured parameters. -/
  | capture
  /-- Text that is kept as it stands. -/
  | verbatim
  deriving DecidableEq, Repr, Inhabited

/-- A bound of a type. -/
structure Bound where
  form : BoundForm
  parts : List Outline
  deriving Inhabited

/-- The nested forms of syntax. -/
inductive Goal where
  /-- A type; whether it may be a list of bounds joined by plus signs. -/
  | type (plus : Bool)
  /-- A bound of a type; whether it may list captured parameters, and whether it may
  be constant. -/
  | bound (capture constant : Bool)
  /-- A pattern without alternatives. -/
  | pattern
  /-- An expression without operators between operands; whether a path may be
  followed by the fields of a struct. -/
  | unary (structs : Bool)
  /-- An expression; whether a path may be followed by the fields of a struct. -/
  | expression (structs : Bool)
  /-- An expression that ends with its block if it begins with one. -/
  | early
  /-- A condition with its branches. -/
  | conditional
  /-- What follows the operand `left`, as far as it binds as tightly as `base`. -/
  | operators (left : Outline) (structs : Bool) (base : Precedence)
  /-- The right operand of an operator. -/
  | operand (structs : Bool) (base : Precedence)
  /-- The statements of a block, to the end of the level. -/
  | statements
  /-- An item with its attributes. -/
  | item
  /-- The fields of a struct by name, in curly brackets. -/
  | fields
  /-- The tree of an import; whether it may begin at the root.  There is none if
  it does so further inside. -/
  | useTree (root : Bool)

/-- What a nested form yields. -/
@[reducible]
def Goal.Result : Goal → Type
  | bound _ _ => Bound
  | statements => List Outline
  | fields => List Outline
  | useTree _ => Option (List Outline)
  | _ => Outline

/-- Readers for every nested form. -/
abbrev Nested := (goal : Goal) → Reader goal.Result

end ProgramGraph.Grammar
