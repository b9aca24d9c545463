import ProgramGraph.Grammar.Expression

/-!
# Statements

A statement is a macro call in curly brackets, a binding, an item or an
expression.  An expression needs a semicolon unless it ends with its block or
stands at the end of the statements.  A semicolon by itself is a statement with
an expression of no text.
-/

namespace ProgramGraph.Grammar

open Source

variable (nested : Nested)

/-! ## Telling statements apart -/

/-- Whether an item comes next that is no macro call. -/
def itemNext : Look :=
  anyOf
    [wordNext "pub",
      both (wordNext "crate") (fun trees => !second (symbolNext "::") trees),
      oneOfWords ["extern", "use", "fn", "mod", "type", "struct", "enum", "trait", "impl", "macro"],
      both (wordNext "static")
        (either (second (wordNext "mut")) (second identifierNext)),
      without (wordNext "const")
        (anyOf [second (groupNext .curly), second (wordNext "static"),
          without (second (wordNext "async")) (third (oneOfWords ["unsafe", "extern", "fn"])),
          second (wordNext "move"), second (symbolNext "|")]),
      without (wordNext "unsafe") (second (groupNext .curly)),
      both (wordNext "async") (second (oneOfWords ["unsafe", "extern", "fn"])),
      both (wordNext "union") (second identifierNext),
      both (wordNext "auto") (second (wordNext "trait")),
      both (wordNext "default") (second (oneOfWords ["unsafe", "impl"]))]

/-- What a macro call at the beginning of a statement is. -/
inductive LeadingMacro where
  /-- There is none, or it is part of an expression. -/
  | none
  /-- It names what it defines, which makes it an item. -/
  | item
  /-- It stands by itself in curly brackets. -/
  | statement

/-- Look for a macro call at the beginning of a statement. -/
def leadingMacro : Reader LeadingMacro := do
  let found ← lookAhead do
    let _ ← plainPath
    if !(← sees (symbolNext "!")) then return LeadingMacro.none
    if ← sees (second (either identifierNext (wordNext "try"))) then return .item
    if ← sees (second (groupNext .curly)) then
      if ← sees (either (third dotNext) (third (symbolNext "?"))) then return .none
      else return .statement
    return .none
  return found.getD .none

/-! ## The statements -/

/-- A binding after its attributes. -/
def letBinding (start : Nat) (attributes : List Outline) : Reader Outline := do
  word "let"
  let pattern ← typedPattern nested [] (← here)
  let value ← if ← optionalSymbol "=" then
      let value ← nested (.expression true)
      if ← whereAllowed (!(← get).curly) (optionalWord "else") then
        pure [value, ← blockExpression nested]
      else
        pure [value]
    else
      pure []
  symbol ";"
  return .element (.statement .letBinding) (← spanFrom start) attributes (pattern :: value)

/-- A macro call in curly brackets after its attributes. -/
def macroStatement (start : Nat) (attributes : List Outline) : Reader Outline := do
  let names ← plainPath
  macroArguments
  let _ ← optionalSymbol ";"
  return .element (.statement .macroCall) (← spanFrom start) attributes names

/-- A statement that is an expression, after its attributes. -/
def expressionStatement (start : Nat) (attributes : List Outline) : Reader Outline := do
  let whole := (← nested .early).attachLeft start attributes
  let closed ← optionalSymbol ";"
  let span ← spanFrom whole.span.first
  match whole.expressionForm with
  | .macroCall curly =>
      if closed || curly then
        return .element (.statement .macroCall) span whole.attributes whole.children
      else
        return .element (.statement .expression) span [] [whole]
  | _ => return .element (.statement .expression) span [] [whole]

/-- A statement that is an item, with its attributes. -/
def itemStatement : Reader Outline := do
  let start ← here
  let item ← nested .item
  element (.statement .item) start [item]

/-- A statement; and whether more statements may follow it. -/
def statement : Reader (Outline × Bool) := do
  let begin ← get
  let start ← here
  let attributes ← outerAttributes nested
  let leading ← leadingMacro
  match leading with
  | .statement => return (← macroStatement start attributes, true)
  | _ => pure ()
  if ← sees (wordNext "let") then
    return (← letBinding nested start attributes, true)
  let isItem ← match leading with
    | .item => pure true
    | _ => sees itemNext
  if isItem then
    set begin
    return (← itemStatement nested, true)
  let outline ← expressionStatement nested start attributes
  let isOpen := match outline.children with
    | whole :: _ =>
        outline.form? == some (.statement .expression) && whole.expressionForm.needsSemicolon &&
          whole.span.last == outline.span.last
    | [] => false
  return (outline, !isOpen)

/-- A semicolon by itself. -/
def emptyStatement : Reader (Option Outline) := do
  let start ← here
  if ← optionalSymbol ";" then
    let nothing := .element (.expression .verbatim) ⟨0, 0⟩ [] []
    return some (← element (.statement .expression) start [nothing])
  else
    return none

/-- The statements of a block, to the end of the level. -/
def statements : Reader (List Outline) := do
  let (found, _) ← iterate
    (fun (found, done) => do
      if done then return none
      match ← emptyStatement with
      | some outline => return some (outline :: found, false)
      | none =>
          if ← atEnd then return none
          let (outline, goesOn) ← statement nested
          if ← atEnd then return some (outline :: found, true)
          if goesOn then return some (outline :: found, false) else fail)
    (([] : List Outline), false)
  return found.reverse

end ProgramGraph.Grammar
