import ProgramGraph.Grammar.Reader
import ProgramGraph.Source.Quoted
import ProgramGraph.Unicode.Blank

/-!
# Attributes

An attribute gives a path, perhaps with bracketed text or with a value.  Of its
text nothing is kept; its path and its value are.  An attribute that gives the
value of `doc` as a string is documentation: it is kept as a whole, with the
string it stands for.
-/

namespace ProgramGraph.Grammar

open Source

variable (nested : Nested)

/-- The words that stand for a place in a path. -/
def placeWords : List String :=
  ["super", "self", "Self", "crate"]

/-- The names of a path without arguments, in which words for places may
occur. -/
def plainPath : Reader (List Outline) := do
  let _ ← optionalSymbol "::"
  let segment := either identifierNext (oneOfWords placeWords)
  let (names, done) ← iterate
    (fun (names, done) => do
      if done || !(← sees segment) then return none
      let name ← anyWord
      return some (name :: names, !(← optionalSymbol "::")))
    (([] : List Outline), false)
  if done then return names.reverse else fail

/-- What an attribute says. -/
structure Meta where
  parts : List Outline
  /-- The text of documentation. -/
  documentation : Option String := none

/-- The text of the string that comes next, blanks at its ends left out. -/
def documentationNext : List TokenTree → Option String
  | .leaf ⟨.literal, text, _⟩ :: _ =>
      (Quoted.value? text.toList).map fun value => String.ofList (Unicode.trim value)
  | _ => none

/-- Whether a literal comes next and nothing after it. -/
def onlyLiteralNext : Look := fun trees =>
  literalNext trees &&
    (if symbolNext "-" trees then (trees.drop 2).isEmpty else (trees.drop 1).isEmpty)

/-- The value of an attribute, and its text if it is a string. -/
def metaValue : Reader (Outline × Option String) := do
  if ← sees onlyLiteralNext then
    let text := documentationNext (← get).rest
    let start ← here
    literal
    return (.element (.expression .literal) (← spanFrom start) [] [], text)
  else if ← sees (both (symbolNext "#") (second (groupNext .square))) then
    fail
  else
    return (← nested (.expression true), none)

/-- What stands in the brackets of an attribute. -/
def metaContent : Reader Meta := do
  let isDocumentation ← sees (wordNext "doc")
  let names ← if ← sees (wordNext "unsafe") then (do return [← anyWord]) else plainPath
  if ← sees (anyOf [groupNext .round, groupNext .square, groupNext .curly]) then
    let _ ← take
    return { parts := names }
  else if ← optionalSymbol "=" then
    let (value, text) ← metaValue nested
    return {
      parts := names ++ [value]
      documentation := if isDocumentation && names.length == 1 then text else none }
  else
    return { parts := names }

/-- One attribute, which is about what encloses it if `inner` is set. -/
def oneAttribute (inner : Bool) : Reader (List Outline) := do
  let start ← here
  symbol "#"
  if inner then symbol "!"
  let content ← inside .square (metaContent nested)
  match content.documentation with
  | some text => return [.document (← spanFrom start) text]
  | none => return content.parts

/-- The attributes before a piece of syntax. -/
def outerAttributes : Reader (List Outline) := do
  let found ← gather do
    if ← sees (symbolNext "#") then return some (← oneAttribute nested false) else return none
  return found.flatten

/-- The attributes at the beginning of what they are about. -/
def innerAttributes : Reader (List Outline) := do
  let found ← gather do
    if ← sees (both (symbolNext "#") (second (symbolNext "!"))) then
      return some (← oneAttribute nested true)
    else
      return none
  return found.flatten

/-- The attributes and the statements of a block. -/
def blockWithAttributes : Reader (List Outline × List Outline) :=
  inside .curly do
    let attributes ← innerAttributes nested
    return (attributes, ← nested .statements)

/-- The statements of a block. -/
def block : Reader (List Outline) :=
  inside .curly (nested .statements)

end ProgramGraph.Grammar
