import ProgramGraph.Grammar.Pattern

/-!
# Expressions

An expression is an operand followed by operators.  An operand is an atom with
what trails it, such as calls and fields, perhaps with marks before it.  Operators
are read by how tightly they bind: what follows an operator is its right operand
together with every operator that binds more tightly.

Where a block follows an expression directly, as after `if`, a path cannot be
followed by the fields of a struct; `structs` tells whether it can.  Where an
expression stands as a statement or as the body of a match arm, one that begins
with a block ends with it.
-/

namespace ProgramGraph.Grammar

open Source

variable (nested : Nested)

/-! ## What comes next -/

/-- The operators with two operands and how tightly they bind, longer ones before
those they begin with. -/
def binaryOperators : List (String × Precedence) :=
  (["+=", "-=", "*=", "/=", "%=", "^=", "&=", "|=", "<<=", ">>="].map (·, .assign)) ++
  [("&&", .conjunction), ("||", .disjunction), ("<<", .shift), (">>", .shift),
    ("==", .compare), ("<=", .compare), ("!=", .compare), (">=", .compare),
    ("+", .sum), ("-", .sum), ("*", .product), ("/", .product), ("%", .product),
    ("^", .bitXor), ("&", .bitAnd), ("|", .bitOr), ("<", .compare), (">", .compare)]

/-- The operator that comes next. -/
def operatorNext (trees : List TokenTree) : Option (String × Precedence) :=
  binaryOperators.find? fun (mark, _) => symbolNext mark trees

/-- Whether the mark of an assignment comes next. -/
def assignmentNext : Look :=
  symbolOnly "=" ["=>"]

/-- How tightly what comes next binds to the operand before it. -/
def precedenceNext (trees : List TokenTree) : Precedence :=
  match operatorNext trees with
  | some (_, precedence) => precedence
  | none =>
      if assignmentNext trees then .assign
      else if symbolNext ".." trees then .range
      else if wordNext "as" trees then .cast
      else .loosest

/-- Whether a dot comes next that begins no range. -/
def dotNext : Look :=
  symbolOnly "." [".."]

/-- Whether an expression comes next. -/
def expressionNext : Look :=
  anyOf [without anyWordNext (wordNext "as"), anyGroupNext, literalNext, symbolOnly "!" ["!="],
    symbolOnly "-" ["-=", "->"], symbolOnly "*" ["*="], symbolOnly "|" ["|="],
    symbolOnly "&" ["&="], symbolNext "..", symbolOnly "<" ["<=", "<<="], symbolNext "::",
    lifetimeNext, symbolNext "#"]

/-- Whether a range ends here after its dots. -/
def openRangeNext (structs : Bool) : Look :=
  anyOf [endNext, symbolNext ",", symbolNext ";", dotNext, symbolNext "?", symbolNext "=>",
    fun trees => !structs && groupNext .curly trees,
    symbolNext "=", symbolNext "+", symbolNext "/", symbolNext "%", symbolNext "^",
    symbolNext ">", symbolNext "<=", symbolNext "!=", symbolNext "-=", symbolNext "*=",
    symbolNext "&=", symbolNext "|=", symbolNext "<<=", wordNext "as"]

/-- Whether a closure comes next that is given for all of its generic
parameters. -/
def forGenericsNext : Look :=
  both (wordNext "for") fun trees => genericsNext (trees.drop 1)

/-! ## Parts of expressions -/

/-- Expressions separated by commas, to the end of the level. -/
def expressionList : Reader (List Outline) :=
  separated "," (nested (.expression true))

/-- A block as an expression. -/
def blockExpression : Reader Outline := do
  let start ← here
  let statements ← block nested
  element (.expression .block) start statements

/-- An element that ends with a block, the attributes in which are its own. -/
def elementWithBlock (form : ExpressionForm) (start : Nat) (children : List Outline) :
    Reader Outline := do
  let (attributes, statements) ← blockWithAttributes nested
  return .element (.expression form) (← spanFrom start) attributes (children ++ statements)

/-- The expression after a word, if one comes next. -/
def optionalExpression (look : Look) : Reader (List Outline) := do
  if ← sees look then return [← nested (.expression true)] else return []

/-- The upper end of a range, if there is one. -/
def rangeUpper (structs closed : Bool) : Reader (List Outline) := do
  if !closed && (← sees (openRangeNext structs)) then return []
  else return [← nested (.operand structs .range)]

/-! ## What trails an operand -/

/-- The positions at which the fields end that a fraction such as `0.1` selects one
after the other. -/
def fieldEnds (position : Nat) : List String → Option (List Nat)
  | [] => some []
  | part :: parts => do
      let value ← Number.value? part.toList
      let last := position + part.length
      if value < Nat.pow 2 32 then return last :: (← fieldEnds (last + 1) parts) else none

/-- The fields after a dot that are written as a fraction; and whether a dot for
another field follows them. -/
def fractionFields (operand : Outline) : Reader (Outline × Bool) := do
  match (← get).rest with
  | .leaf ⟨.literal, text, span⟩ :: _ =>
      if isNumber text && (Number.suffix? text.toList).isNone then
        let parts := text.splitOn "."
        let hanging := parts.getLast? == some ""
        match fieldEnds span.first (if hanging then parts.dropLast else parts) with
        | some ends =>
            let _ ← take
            let fields := ends.foldl
              (fun field last =>
                .element (.expression .field) ⟨operand.span.first, last⟩ [] [field])
              operand
            return (fields, hanging)
        | none => fail
      else
        return (operand, true)
  | _ => return (operand, true)

/-- What follows the dot after an operand: fields, a method call, or the word that
awaits the operand. -/
def afterDot (operand : Outline) : Reader Outline := do
  let start := operand.span.first
  let (operand, goesOn) ← fractionFields operand
  if !goesOn then return operand
  if ← optionalWord "await" then
    return ← element (.expression .await) start [operand]
  match ← member with
  | none => element (.expression .field) start [operand]
  | some name =>
      let turbofish ← optionalSymbol "::"
      let arguments ← if turbofish then angleArguments nested else pure []
      if turbofish || (← sees (groupNext .round)) then
        let inputs ← inside .round (expressionList nested)
        element (.expression .methodCall) start (operand :: name :: (arguments ++ inputs))
      else
        element (.expression .field) start [operand, name]

/-- What trails an operand directly, if anything does. -/
def trailer (operand : Outline) : Reader (Option Outline) := do
  let start := operand.span.first
  let isRange := operand.expressionForm == .range
  if ← sees (groupNext .round) then
    let inputs ← inside .round (expressionList nested)
    return some (← element (.expression .call) start (operand :: inputs))
  else if !isRange && (← sees dotNext) then
    symbol "."
    return some (← afterDot nested operand)
  else if ← sees (groupNext .square) then
    let index ← inside .square (nested (.expression true))
    return some (← element (.expression .index) start [operand, index])
  else if ← whereAllowed (!isRange) (optionalSymbol "?") then
    return some (← element (.expression .question) start [operand])
  else
    return none

/-- All that trails an operand. -/
def trailers (operand : Outline) : Reader Outline :=
  iterate (trailer nested) operand

/-! ## Atoms -/

/-- A field in the literal of a struct.  The name of a field alone is also the path
that gives its value. -/
def fieldValue : Reader (List Outline) := do
  let attributes ← outerAttributes nested
  match ← member with
  | none =>
      symbol ":"
      return attributes ++ [← nested (.expression true)]
  | some name =>
      if ← optionalSymbol ":" then
        return attributes ++ [name, ← nested (.expression true)]
      else
        return attributes ++ [name, .element (.expression .path) name.span [] [name]]

/-- The fields in the literal of a struct, perhaps with dots and the value for the
others at the end. -/
def fieldValues : Reader (List Outline) := do
  let (found, _) ← iterate
    (fun (found, done) => do
      if done || (← atEnd) then return none
      if ← optionalSymbol ".." then
        let others ← if ← atEnd then pure [] else (do return [← nested (.expression true)])
        return some (others :: found, true)
      else
        let parts ← fieldValue nested
        if !(← atEnd) then symbol ","
        return some (parts :: found, false))
    (([] : List (List Outline)), false)
  return found.reverse.flatten

/-- An expression that begins with a path: a macro call, the literal of a struct,
or the path. -/
def namedExpression (structs : Bool) : Reader Outline := do
  let start ← here
  let path ← qualifiedPath nested true
  if path.plain && (← sees exclamationNext) then
    macroArguments
    element (.expression (.macroCall (← get).curly)) start path.parts
  else if structs && (← sees (groupNext .curly)) then
    let fields ← inside .curly (fieldValues nested)
    element (.expression .structLiteral) start (path.parts ++ fields)
  else
    element (.expression .path) start path.parts

/-- A tuple, or an expression in round brackets. -/
def enclosedExpression : Reader Outline := do
  let start ← here
  let (form, elements) ← inside .round do
    if ← atEnd then return (ExpressionForm.tuple, [])
    let first ← nested (.expression true)
    if ← atEnd then return (.parenthesized, [first])
    symbol ","
    return (.tuple, first :: (← expressionList nested))
  element (.expression form) start elements

/-- An array given by its elements, or by one element and how often it occurs. -/
def arrayExpression : Reader Outline := do
  let start ← here
  let (form, elements) ← inside .square do
    if ← atEnd then return (ExpressionForm.array, [])
    let first ← nested (.expression true)
    if ← atEnd then return (.array, [first])
    else if ← optionalSymbol "," then
      return (.array, first :: (← expressionList nested))
    else
      symbol ";"
      return (.other, [first, ← nested (.expression true)])
  element (.expression form) start elements

/-- A parameter of a closure. -/
def closureParameter : Reader Outline := do
  let start ← here
  let attributes ← outerAttributes nested
  typedPattern nested attributes start

/-- A closure. -/
def closure (structs : Bool) : Reader Outline := do
  let start ← here
  let (lifetimes, _) ← forLifetimes nested
  let _ ← optionalWord "const"
  let _ ← optionalWord "static"
  let _ ← optionalWord "async"
  let _ ← optionalWord "move"
  symbol "|"
  let inputs ← listed "," (symbolNext "|") (closureParameter nested)
  symbol "|"
  let output ← returned nested true
  let body ← if output.isEmpty then nested (.expression structs) else blockExpression nested
  element (.expression .closure) start (lifetimes ++ inputs ++ output ++ [body])

/-- A condition with the statements to run and perhaps the branch to take
otherwise. -/
def conditional : Reader Outline := do
  let start ← here
  word "if"
  let condition ← nested (.expression false)
  let statements ← block nested
  let otherwise ←
    if ← optionalWord "else" then
      if ← sees (wordNext "if") then pure [← nested .conditional]
      else pure [← blockExpression nested]
    else
      pure []
  element (.expression .ifElse) start (condition :: (statements ++ otherwise))

/-- An arm of a match. -/
def arm : Reader (List Outline) := do
  let attributes ← outerAttributes nested
  let pattern ← alternatives nested
  let condition ← if ← optionalWord "if" then (do return [← nested (.expression true)]) else pure []
  symbol "=>"
  let body ← nested .early
  if body.expressionForm.isBlockLike || (← atEnd) then
    let _ ← optionalSymbol ","
  else
    symbol ","
  return attributes ++ pattern :: (condition ++ [body])

/-- A match with its arms. -/
def matchExpression : Reader Outline := do
  let start ← here
  word "match"
  let scrutinee ← nested (.expression false)
  let (attributes, arms) ← inside .curly do
    let attributes ← innerAttributes nested
    return (attributes, ← everything (arm nested))
  return .element (.expression .matchOn) (← spanFrom start) attributes (scrutinee :: arms.flatten)

/-- Whether a loop or a block comes next. -/
def loopNext : Look :=
  either (oneOfWords ["while", "for", "loop"]) (groupNext .curly)

/-- A loop or a block after its label, if it has one. -/
def loopExpression (start : Nat) (label : List Outline) : Reader Outline := do
  if ← optionalWord "while" then
    let condition ← nested (.expression false)
    elementWithBlock nested .whileLoop start (label ++ [condition])
  else if ← optionalWord "for" then
    let pattern ← alternatives nested
    word "in"
    let values ← nested (.expression false)
    elementWithBlock nested .forLoop start (label ++ [pattern, values])
  else if ← optionalWord "loop" then
    elementWithBlock nested .loop start label
  else
    elementWithBlock nested .block start label

/-- A loop or a block with its label. -/
def labelled : Reader Outline := do
  let start ← here
  let label ← lifetime
  symbol ":"
  loopExpression nested start [label]

/-- The way out of a loop, perhaps with a value.  A label with a loop of its own
needs round brackets. -/
def breakOut (structs : Bool) : Reader Outline := do
  let start ← here
  word "break"
  let place ← here
  if ← sees (both lifetimeNext (second (symbolNext ":"))) then
    let _ ← nested (.expression true)
    failAt place
  let label ← optionalLifetime
  let value ← optionalExpression nested
    (fun trees => expressionNext trees && (structs || !groupNext .curly trees))
  element (.expression .breakOut) start (label ++ value)

/-- A condition that matches a pattern. -/
def letCondition (structs : Bool) : Reader Outline := do
  let start ← here
  word "let"
  let pattern ← alternatives nested
  symbol "="
  let left ← nested (.unary structs)
  let value ← nested (.operators left structs .compare)
  element (.expression .letCondition) start [pattern, value]

/-- Text that the language keeps for its own use, of which nothing is shown. -/
def builtin : Reader Outline := do
  let start ← here
  takeMany 2
  let _ ← identifier
  takeWhere (groupNext .round) 1
  element (.expression .verbatim) start []

/-- Whether a block that is run asynchronously comes next. -/
def asyncBlockNext : Look :=
  both (wordNext "async")
    (either (second (groupNext .curly))
      (both (second (wordNext "move")) (third (groupNext .curly))))

/-- Whether a closure comes next. -/
def closureNext : Look :=
  anyOf [symbolNext "|", wordNext "move", forGenericsNext,
    without (wordNext "const") (second (groupNext .curly)), wordNext "static",
    both (wordNext "async") (either (second (symbolNext "|")) (second (wordNext "move")))]

/-- An expression without operators, marks before it, or anything that trails
it. -/
def atom (structs : Bool) : Reader Outline := do
  let start ← here
  if ← sees literalNext then
    literal
    element (.expression .literal) start []
  else if ← sees asyncBlockNext then
    word "async"
    let _ ← optionalWord "move"
    element (.expression .asyncBlock) start (← block nested)
  else if ← takeIf (both (wordNext "try") (second (groupNext .curly))) 1 then
    element (.expression .tryBlock) start (← block nested)
  else if ← sees closureNext then
    closure nested structs
  else if ← sees (both (wordNext "builtin") (second (symbolNext "#"))) then
    builtin
  else if ← sees (either pathNext
      (both (wordNext "try") (either (second (symbolNext "!")) (second (symbolNext "::"))))) then
    namedExpression nested structs
  else if ← sees (groupNext .round) then
    enclosedExpression nested
  else if ← sees (wordNext "break") then
    breakOut nested structs
  else if ← optionalWord "continue" then
    element (.expression .continueOn) start (← optionalLifetime)
  else if ← optionalWord "return" then
    element (.expression .returnValue) start (← optionalExpression nested expressionNext)
  else if ← optionalWord "become" then
    let _ ← nested (.expression true)
    element (.expression .verbatim) start []
  else if ← sees (groupNext .square) then
    arrayExpression nested
  else if ← sees (wordNext "let") then
    letCondition nested structs
  else if ← sees (wordNext "if") then
    nested .conditional
  else if ← sees loopNext then
    loopExpression nested start []
  else if ← sees (wordNext "match") then
    matchExpression nested
  else if ← optionalWord "yield" then
    element (.expression .other) start (← optionalExpression nested expressionNext)
  else if ← optionalWord "unsafe" then
    elementWithBlock nested .unsafeBlock start []
  else if ← optionalWord "const" then
    elementWithBlock nested .constBlock start []
  else if ← sees (symbolNext "..") then
    let (_, closed) ← limits false
    element (.expression .range) start (← rangeUpper nested structs closed)
  else if ← optionalWord "_" then
    element (.expression .other) start []
  else if ← sees lifetimeNext then
    labelled nested
  else
    fail

/-! ## Operands and operators -/

/-- An atom with what trails it; `start` is where the attributes before it
begin. -/
def trailed (structs : Bool) (start : Nat) (attributes : List Outline) : Reader Outline := do
  let place ← here
  let outline ← trailers nested (← atom nested structs)
  match outline.expressionForm with
  | .verbatim => element (.expression .verbatim) start []
  | .range => if attributes.isEmpty then return outline else failAt place
  | _ => return outline.attach start attributes

/-- An operand with its attributes and the marks before it. -/
def unary (structs : Bool) : Reader Outline := do
  let start ← here
  let attributes ← outerAttributes nested
  let place ← here
  if ← optionalSymbol "&" then
    let raw ← takeIf (both (wordNext "raw") (second (oneOfWords ["mut", "const"]))) 1
    let mutable ← optionalWord "mut"
    if raw && !mutable then word "const"
    let operand ← nested (.unary structs)
    let outline ← element (.expression (if raw then .other else .reference)) place [operand]
    return outline.attach start attributes
  else if ← takeIf (anyOf [symbolNext "*", symbolNext "!", symbolNext "-"]) 1 then
    let operand ← nested (.unary structs)
    let outline ← element (.expression .unary) place [operand]
    return outline.attach start attributes
  else
    trailed nested structs start attributes

/-- Whether what comes next cannot follow a cast: a field, a call, an index or a
question mark. -/
def afterCast : Look :=
  anyOf [dotNext, symbolNext "?", groupNext .square, groupNext .round]

/-- The next operator that binds at least as tightly as `base`, with its right
operand. -/
def operatorStep (structs : Bool) (base : Precedence) (left : Outline) :
    Reader (Option Outline) := do
  let start := left.span.first
  if left.expressionForm == .range then return none
  match operatorNext (← get).rest with
  | some (mark, precedence) =>
      let comparison := precedence == .compare
      if precedence.rank < base.rank then return none
      if comparison && left.expressionForm == .binary true then fail
      symbol mark
      let right ← nested (.operand structs precedence)
      return some (← element (.expression (.binary comparison)) start [left, right])
  | none =>
      if base.rank ≤ Precedence.assign.rank && (← sees assignmentNext) then
        symbol "="
        let right ← nested (.operand structs .assign)
        return some (← element (.expression .assignment) start [left, right])
      else if base.rank ≤ Precedence.range.rank && (← sees (symbolNext "..")) then
        let (_, closed) ← limits false
        let upper ← rangeUpper nested structs closed
        return some (← element (.expression .range) start (left :: upper))
      else if ← whereAllowed (base.rank ≤ Precedence.cast.rank) (optionalWord "as") then
        let type ← nested (.type false)
        let outline ← element (.expression .cast) start [left, type]
        if ← sees afterCast then fail else return some outline
      else
        return none

/-- What follows an operand, as far as it binds at least as tightly as `base`. -/
def operators (left : Outline) (structs : Bool) (base : Precedence) : Reader Outline :=
  iterate (operatorStep nested structs base) left

/-- The right operand of an operator: an operand with every operator after it that
binds more tightly.  Assignments group to the right. -/
def operand (structs : Bool) (base : Precedence) : Reader Outline := do
  let first ← nested (.unary structs)
  iterate
    (fun right => do
      let trees := (← get).rest
      let next := precedenceNext trees
      if base.rank < next.rank || next == base && base == .assign then
        let whole ← nested (.operators right structs next)
        if (← get).rest.length == trees.length then return none else return some whole
      else
        return none)
    first

/-- An expression. -/
def expression (structs : Bool) : Reader Outline := do
  let left ← nested (.unary structs)
  nested (.operators left structs .loosest)

/-- Whether an expression comes next that ends with its block. -/
def earlyNext : Look :=
  anyOf [oneOfWords ["if", "while", "loop", "match", "unsafe"],
    without (wordNext "for") forGenericsNext,
    both (oneOfWords ["try", "const"]) (second (groupNext .curly)),
    groupNext .curly, lifetimeNext]

/-- An expression as a statement or as the body of a match arm.  One that begins
with a block ends with it, unless a dot or a question mark follows. -/
def early : Reader Outline := do
  let start ← here
  let attributes ← outerAttributes nested
  if ← sees earlyNext then
    let first ← atom nested true
    if ← sees (either dotNext (symbolNext "?")) then
      let left ← trailers nested first
      nested (.operators (left.attach start attributes) true .loosest)
    else
      return first.attach start attributes
  else
    let left ← nested (.unary true)
    nested (.operators (left.attach start attributes) true .loosest)

end ProgramGraph.Grammar
