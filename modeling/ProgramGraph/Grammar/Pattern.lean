import ProgramGraph.Grammar.Type
import ProgramGraph.Source.Number

/-!
# Patterns

A pattern is told apart by its first one or two trees: a word alone binds, and a
word before a bracket, a double colon, an exclamation mark or two dots begins a
path.  Alternatives are read where they are allowed, which is wherever a pattern
stands inside brackets or before a mark that ends it.
-/

namespace ProgramGraph.Grammar

open Source

variable (nested : Nested)

/-! ## Alternatives -/

/-- Whether the bar between alternatives comes next. -/
def barNext : Look :=
  without (without (symbolNext "|") (symbolNext "||")) (symbolNext "|=")

/-- A pattern that may be a list of alternatives, perhaps with a bar before the
first one. -/
def alternatives : Reader Outline := do
  let start ← here
  let leading ← optionalSymbol "|"
  let first ← nested .pattern
  let others ← gather do
    if ← sees barNext then
      symbol "|"
      return some (← nested .pattern)
    else
      return none
  if leading || !others.isEmpty then element (.pattern .alternatives) start (first :: others)
  else return first

/-- Patterns separated by commas, to the end of the level. -/
def patternList : Reader (List Outline) :=
  separated "," (alternatives nested)

/-! ## Ranges -/

/-- The limits between the ends of a range: their position, and whether the upper
end belongs to the range.  Three dots are an old way to say that it does. -/
def limits (obsolete : Bool) : Reader (Nat × Bool) := do
  let start ← here
  if ← optionalSymbol "..=" then
    return (start, true)
  else if ← whereAllowed obsolete (optionalSymbol "...") then
    return (start, true)
  else if ← sees (without (symbolNext "..") (symbolNext "...")) then
    symbol ".."
    return (start, false)
  else
    fail

/-- Where a range pattern without an upper end stops. -/
def rangeEnd : Look :=
  anyOf [endNext, symbolNext "|", symbolNext "=", colonNext, symbolNext ",", symbolNext ";",
    wordNext "if"]

/-- The path that an expression is, from its start. -/
def pathExpression : Reader Outline := do
  let start ← here
  let path ← qualifiedPath nested true
  return path.expression (← spanFrom start)

/-- The statements of a block of constants, with their attributes before them. -/
def constBlock : Reader (List Outline × List Outline) := do
  word "const"
  blockWithAttributes nested

/-- The words and marks that a path may begin with. -/
def pathNext : Look :=
  anyOf [identifierNext, symbolNext "::", symbolNext "<", oneOfWords placeWords]

/-- The form that an end of a range would have as a pattern of its own. -/
structure RangeBound where
  form : PatternForm
  outline : Outline
  /-- What it shows as a pattern. -/
  parts : List Outline

/-- An end of a range, if there is one. -/
def rangeBound : Reader (Option RangeBound) := do
  if ← sees rangeEnd then return none
  let start ← here
  if ← sees literalNext then
    literal
    let outline ← element (.expression .literal) start []
    return some { form := .literal, outline, parts := [] }
  else if ← sees pathNext then
    let outline ← pathExpression nested
    return some { form := .path, outline, parts := outline.children }
  else if ← sees (wordNext "const") then
    let (attributes, statements) ← constBlock nested
    let span ← spanFrom start
    let outline := .element (.expression .constBlock) span attributes statements
    return some { form := .other, outline, parts := attributes ++ statements }
  else
    fail

/-- The rest of a range after its lower end, which begins at `start`. -/
def rangeAfter (start : Nat) (lower : Outline) : Reader Outline := do
  let (place, closed) ← limits true
  match ← rangeBound nested with
  | some upper => element (.pattern (.range none)) start [lower, upper.outline]
  | none => if closed then fail else element (.pattern (.range (some place))) start [lower]

/-- A range without a lower end, or the dots that stand for the rest of a
sequence. -/
def rangeTo : Reader Outline := do
  let start ← here
  let (place, closed) ← limits false
  match ← rangeBound nested with
  | some upper => element (.pattern (.range (some place))) start [upper.outline]
  | none => if closed then fail else element (.pattern .rest) start []

/-- A literal or a block of constants, or a range that begins with one. -/
def literalPattern : Reader Outline := do
  let start ← here
  match ← rangeBound nested with
  | some lower =>
      if ← sees (symbolNext "..") then rangeAfter nested start lower.outline
      else element (.pattern lower.form) start lower.parts
  | none => fail

/-! ## Structures -/

/-- The name or the number of a field.  A number shows nothing. -/
def member : Reader (Option Outline) := do
  match (← get).rest with
  | .leaf ⟨.word, _, _⟩ :: _ => return some (← identifier)
  | .leaf ⟨.literal, text, _⟩ :: _ =>
      match Number.value? text.toList with
      | some value =>
          if value < Nat.pow 2 32 then
            literal
            return none
          else
            fail
      | none => fail
  | _ => fail

/-- A field in the pattern of a struct.  The name of a field alone also binds
it. -/
def fieldPattern : Reader (List Outline) := do
  let start ← here
  let boxed ← optionalWord "box"
  let byReference ← optionalWord "ref"
  let mutable ← optionalWord "mut"
  let marked := boxed || byReference || mutable
  let field ← if marked then (do return some (← identifier)) else member
  match field with
  | none =>
      symbol ":"
      return [← alternatives nested]
  | some name =>
      if ← whereAllowed (!marked) (optionalSymbol ":") then
        return [name, ← alternatives nested]
      else if boxed then
        return [name, ← element (.pattern .verbatim) start []]
      else
        return [name, ← element (.pattern .binding) start [name]]

/-- The fields in the pattern of a struct, perhaps with dots for the others at the
end. -/
def fieldPatterns : Reader (List Outline) := do
  let (found, _) ← iterate
    (fun (found, done) => do
      if done || (← atEnd) then return none
      let attributes ← outerAttributes nested
      if ← optionalSymbol ".." then
        return some (attributes :: found, true)
      else
        let parts ← fieldPattern nested
        if !(← atEnd) then symbol ","
        return some ((attributes ++ parts) :: found, false))
    (([] : List (List Outline)), false)
  return found.reverse.flatten

/-- A pattern that begins with a path. -/
def namedPattern : Reader Outline := do
  let start ← here
  let path ← qualifiedPath nested true
  if path.plain && (← sees exclamationNext) then
    macroArguments
    element (.pattern .other) start path.parts
  else if ← sees (groupNext .curly) then
    let fields ← inside .curly (fieldPatterns nested)
    element (.pattern .structPattern) start (path.parts ++ fields)
  else if ← sees (groupNext .round) then
    let elements ← inside .round (patternList nested)
    element (.pattern .tupleStruct) start (path.parts ++ elements)
  else if ← sees (symbolNext "..") then
    rangeAfter nested start (path.expression (← spanFrom start))
  else
    element (.pattern .path) start path.parts

/-! ## The other patterns -/

/-- A pattern that binds a name, perhaps to what matches another pattern. -/
def bindingPattern : Reader Outline := do
  let start ← here
  let _ ← optionalWord "ref"
  let _ ← optionalWord "mut"
  let name ← nameWhere (either identifierNext (wordNext "self"))
  let whole ← if ← optionalSymbol "@" then (do return [← nested .pattern]) else pure []
  element (.pattern .binding) start (name :: whole)

/-- A tuple, or a pattern in round brackets. -/
def enclosedPattern : Reader Outline := do
  let start ← here
  let (elements, alone) ← inside .round do
    if ← atEnd then return ([], false)
    let first ← alternatives nested
    if ← atEnd then
      return ([first], first.form? != some (.pattern .rest))
    else
      symbol ","
      return (first :: (← patternList nested), false)
  element (.pattern (if alone then .other else .tuple)) start elements

/-- An element of a slice.  A range that is open at one end needs round
brackets. -/
def sliceElement : Reader Outline := do
  let pattern ← alternatives nested
  match pattern.form? with
  | some (.pattern (.range (some place))) => failAt place
  | _ => return pattern

/-- Whether a word comes next that begins a path in a pattern. -/
def namedPatternNext : Look :=
  anyOf
    [both identifierNext (anyOf [second (symbolNext "::"), second (symbolNext "!"),
      second (groupNext .curly), second (groupNext .round), second (symbolNext "..")]),
      both (wordNext "self") (second (symbolNext "::")),
      symbolNext "::", symbolNext "<", oneOfWords ["Self", "super", "crate"]]

/-- A pattern without alternatives. -/
def pattern : Reader Outline := do
  let start ← here
  if ← sees namedPatternNext then
    namedPattern nested
  else if ← optionalWord "_" then
    element (.pattern .wildcard) start []
  else if ← optionalWord "box" then
    let _ ← nested .pattern
    element (.pattern .verbatim) start []
  else if ← sees (anyOf [symbolNext "-", literalNext, wordNext "const"]) then
    literalPattern nested
  else if ← sees (either identifierNext (oneOfWords ["ref", "mut", "self"])) then
    bindingPattern nested
  else if ← optionalSymbol "&" then
    let _ ← optionalWord "mut"
    element (.pattern .reference) start [← nested .pattern]
  else if ← sees (groupNext .round) then
    enclosedPattern nested
  else if ← sees (groupNext .square) then
    element (.pattern .slice) start (← inside .square (separated "," (sliceElement nested)))
  else if ← sees (symbolNext "..") then
    rangeTo nested
  else
    fail

/-- A pattern that may be given a type, which makes it an element of its own that
takes the attributes. -/
def typedPattern (attributes : List Outline) (start : Nat) : Reader Outline := do
  let pattern ← nested .pattern
  if ← optionalSymbol ":" then
    let type ← nested (.type true)
    element (.pattern .typed) start [.ascription attributes pattern type]
  else
    return pattern.attach start attributes

end ProgramGraph.Grammar
