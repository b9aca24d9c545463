import ProgramGraph.Grammar.Attribute

/-!
# Paths, bounds and generic parameters

A path is a chain of names, each perhaps with arguments in angle brackets.  Types
read an angle bracket after a name as arguments; expressions need a double colon
before it.  A path may begin with a type in angle brackets.
-/

namespace ProgramGraph.Grammar

open Source

variable (nested : Nested)

/-- A path that was read. -/
structure Path where
  /-- Its names and arguments as they are visited. -/
  parts : List Outline
  /-- Whether it begins with a type in angle brackets. -/
  qualified : Bool
  /-- Whether no name has arguments. -/
  plain : Bool
  /-- Whether it is a single name without a double colon before it, with at most
  arguments in angle brackets. -/
  single : Bool
  /-- Whether its last name has no arguments. -/
  isOpen : Bool

/-- A path of a given span as an expression. -/
def Path.expression (path : Path) (span : Span) : Outline :=
  .element (.expression .path) span [] path.parts

/-! ## Arguments -/

/-- A constant as an argument: a literal, a name or a block. -/
def constArgument : Reader Outline := do
  let start ← here
  if ← sees literalNext then
    literal
    return .element (.expression .literal) (← spanFrom start) [] []
  else if ← sees identifierNext then
    let name ← identifier
    return .element (.expression .path) (← spanFrom start) [] [name]
  else if ← sees (groupNext .curly) then
    let (attributes, statements) ← blockWithAttributes nested
    return .element (.expression .block) (← spanFrom start) attributes statements
  else
    fail

/-- One argument in angle brackets: a lifetime, a constant, a type, or a name that
is given a type, a constant or bounds. -/
def genericArgument : Reader (List Outline) := do
  if ← sees (without lifetimeNext (second (symbolNext "+"))) then
    return [← lifetime]
  let constantNext := either literalNext (groupNext .curly)
  if ← sees constantNext then
    return [← constArgument nested]
  let type ← nested (.type true)
  if type.form? = some (.type (.path false true)) then
    if ← optionalSymbol "=" then
      let value ← if ← sees constantNext then constArgument nested else nested (.type true)
      return type.children ++ [value]
    else if ← optionalSymbol ":" then
      let bounds ← joined "+" (either (symbolNext ",") (symbolNext ">"))
        (nested (.bound false true))
      return type.children ++ (bounds.map Bound.parts).flatten
    else
      return [type]
  else
    return [type]

/-- Arguments in angle brackets. -/
def angleArguments : Reader (List Outline) := do
  symbol "<"
  let arguments ← listed "," (symbolNext ">") (genericArgument nested)
  symbol ">"
  return arguments.flatten

/-- The type that is returned, if one is given. -/
def returned (plus : Bool) : Reader (List Outline) := do
  if ← optionalSymbol "->" then return [← nested (.type plus)] else return []

/-- Arguments in round brackets, perhaps with a returned type; and whether more
names may follow them.  They may unless a returned type without brackets of its
own would take them. -/
def roundArguments : Reader (List Outline × Bool) := do
  let inputs ← inside .round (separated "," (nested (.type true)))
  let output ← returned nested false
  let enclosed := output.all (·.form? == some (.type .parenthesized))
  return (inputs ++ output, enclosed)

/-- Whether arguments in round brackets come next, perhaps after a double
colon. -/
def roundArgumentsNext : Look :=
  either (groupNext .round) (both (symbolNext "::") (third (groupNext .round)))

/-! ## Paths -/

/-- A name of a path with its arguments, and whether it has any. -/
def segment (expression : Bool) : Reader (List Outline × Bool) := do
  if ← sees (oneOfWords ["super", "self", "crate", "try"]) then
    return ([← anyWord], false)
  let name ← if ← sees (wordNext "Self") then anyWord else identifier
  let angle := without (without (symbolNext "<") (symbolNext "<=")) (symbolNext "<<=")
  let turbofish := both (symbolNext "::") (third (symbolNext "<"))
  if (!expression && (← sees angle)) || (← sees turbofish) then
    let _ ← optionalSymbol "::"
    return (name :: (← angleArguments nested), true)
  else
    return ([name], false)

/-- Go on with a path after its first names. -/
def restOfPath (expression : Bool) (path : Path) : Reader Path :=
  iterate
    (fun path => do
      if ← sees (without (symbolNext "::") (third (groupNext .round))) then
        symbol "::"
        let (parts, arguments) ← segment nested expression
        return some { path with
          parts := path.parts ++ parts
          plain := path.plain && !arguments
          single := false
          isOpen := !arguments }
      else
        return none)
    path

/-- A path that begins with a name. -/
def path (expression : Bool) : Reader Path := do
  let rooted ← optionalSymbol "::"
  let (parts, arguments) ← segment nested expression
  restOfPath nested expression
    { parts, qualified := false, plain := !arguments, single := !rooted, isOpen := !arguments }

/-- A path that may begin with a type in angle brackets. -/
def qualifiedPath (expression : Bool) : Reader Path := do
  if ← optionalSymbol "<" then
    let type ← nested (.type true)
    let trait ← if ← optionalWord "as" then (do return (← path nested false).parts) else pure []
    symbol ">"
    symbol "::"
    let (parts, arguments) ← segment nested expression
    let start : Path :=
      { parts := type :: (trait ++ parts), qualified := true, plain := false, single := false,
        isOpen := !arguments }
    iterate
      (fun path => do
        if ← optionalSymbol "::" then
          let (parts, arguments) ← segment nested expression
          return some { path with parts := path.parts ++ parts, isOpen := !arguments }
        else
          return none)
      start
  else
    path nested expression

/-- A path that names a type: its names may also have arguments in round
brackets. -/
def typePath : Reader Path := do
  let start ← qualifiedPath nested false
  let (whole, _) ← iterate
    (fun (path, done) => do
      if done || !path.isOpen || !(← sees roundArgumentsNext) then return none
      let _ ← optionalSymbol "::"
      let (parts, enclosed) ← roundArguments nested
      let path := { path with
        parts := path.parts ++ parts, plain := false, single := false, isOpen := false }
      if enclosed then return some (← restOfPath nested false path, false)
      else return some (path, true))
    (start, false)
  return whole

/-! ## Generic parameters -/

/-- The bounds of a parameter after its colon. -/
def bounds (stop : Look) : Reader (List Outline) := do
  let found ← joined "+" stop (nested (.bound false true))
  return (found.map Bound.parts).flatten

/-- The bounds of a parameter, if a colon announces them. -/
def optionalBounds (stop : Look) : Reader (List Outline) := do
  if ← optionalSymbol ":" then bounds nested stop else return []

/-- The lifetimes that a lifetime has to outlive. -/
def lifetimeBounds (stop : Look) : Reader (List Outline) := do
  if ← optionalSymbol ":" then joined "+" stop lifetime else return []

/-- Whether a level is at its end. -/
def endNext : Look :=
  fun trees => trees.isEmpty

/-- A generic parameter: a lifetime, a type or a constant. -/
def genericParameter (blank : Bool) : Reader (List Outline) := do
  let attributes ← outerAttributes nested
  if ← sees lifetimeNext then
    let name ← lifetime
    let bounds ← lifetimeBounds (anyOf [endNext, symbolNext ",", symbolNext ">"])
    return attributes ++ name :: bounds
  else if ← sees identifierNext then
    let name ← identifier
    let bounds ← optionalBounds nested
      (anyOf [endNext, symbolNext ",", symbolNext ">", symbolNext "="])
    let default ← if ← optionalSymbol "=" then (do return [← nested (.type true)]) else pure []
    return attributes ++ name :: (bounds ++ default)
  else if ← optionalWord "const" then
    let name ← identifier
    symbol ":"
    let type ← nested (.type true)
    let default ← if ← optionalSymbol "=" then (do return [← constArgument nested]) else pure []
    return attributes ++ name :: type :: default
  else if blank && (← sees (wordNext "_")) then
    return attributes ++ [← anyWord]
  else
    fail

/-- The parameters that a bound or a type is given for all of, if there are any;
and whether there are. -/
def forLifetimes : Reader (List Outline × Bool) := do
  if ← optionalWord "for" then
    symbol "<"
    let parameters ← listed "," (symbolNext ">") (genericParameter nested false)
    symbol ">"
    return (parameters.flatten, true)
  else
    return ([], false)

/-- The generic parameters of an item; and whether there are angle brackets. -/
def genericParameters : Reader (List Outline × Bool) := do
  if ← optionalSymbol "<" then
    let parameters ← listed "," (symbolNext ">") (genericParameter nested true)
    symbol ">"
    return (parameters.flatten, true)
  else
    return ([], false)

/-- A single colon. -/
def colonNext : Look :=
  without (symbolNext ":") (symbolNext "::")

/-- Whether generic parameters come next rather than a path that begins with a type
in angle brackets. -/
def genericsNext : Look :=
  both (symbolNext "<")
    (anyOf [second (symbolNext ">"), second (symbolNext "#"), second (wordNext "const"),
      both (either (second lifetimeNext) (second identifierNext))
        (anyOf [third (symbolNext ">"), third (symbolNext ","), third colonNext,
          third (symbolNext "=")])])

/-- Where the conditions of an item end. -/
def conditionsEnd : Look :=
  anyOf [endNext, groupNext .curly, symbolNext ",", symbolNext ";", colonNext, symbolNext "="]

/-- One condition on the parameters of an item. -/
def condition : Reader (List Outline) := do
  if ← sees (both lifetimeNext (second (symbolNext ":"))) then
    let name ← lifetime
    let bounds ← lifetimeBounds
      (anyOf [endNext, groupNext .curly, symbolNext ",", symbolNext ";", symbolNext ":",
        symbolNext "="])
    return name :: bounds
  else
    let (lifetimes, _) ← forLifetimes nested
    let type ← nested (.type true)
    symbol ":"
    let bounds ← bounds nested conditionsEnd
    return lifetimes ++ type :: bounds

/-- The conditions on the parameters of an item; and whether they are given.  They
have no generic parameters of their own. -/
def conditions : Reader (List Outline × Bool) := do
  if ← optionalWord "where" then
    if ← sees genericsNext then fail
    let found ← joined "," conditionsEnd (condition nested)
    return (found.flatten, true)
  else
    return ([], false)

/-! ## Bounds -/

/-- The parameters that a bound captures. -/
def captures : Reader (List Outline) := do
  word "use"
  symbol "<"
  let captured ← listed "," (symbolNext ">") do
    if ← sees lifetimeNext then lifetime
    else nameWhere (either identifierNext (wordNext "Self"))
  symbol ">"
  return captured

/-- A trait as a bound, and whether it is kept.  A bound that is constant or
conditionally constant is not. -/
def traitBound (constant : Bool) : Reader Bound := do
  let (lifetimes, bound) ← forLifetimes nested
  let start ← here
  let isConstant ←
    if ← sees (groupNext .square) then
      inside .square (word "const")
      pure true
    else
      optionalWord "const"
  if isConstant && !constant then failAt start
  let maybe ← optionalSymbol "?"
  let (lifetimes, _) ← if maybe && !bound then forLifetimes nested else pure (lifetimes, bound)
  let path ← path nested false
  let arguments ←
    if path.isOpen && (← sees roundArgumentsNext) then
      let _ ← optionalSymbol "::"
      pure (← roundArguments nested).1
    else
      pure []
  if isConstant then return ⟨.verbatim, []⟩
  return ⟨.trait, lifetimes ++ path.parts ++ arguments⟩

/-- One bound. -/
def bound (capture constant : Bool) : Reader Bound := do
  if ← sees lifetimeNext then
    return ⟨.lifetime, [← lifetime]⟩
  if ← sees (wordNext "use") then
    let start ← here
    let captured ← captures
    if capture then return ⟨.capture, captured⟩ else failAt start
  if ← sees (groupNext .round) then
    inside .round (traitBound nested constant)
  else
    traitBound nested constant

/-- Bounds joined by plus signs, if these are allowed. -/
def boundList (plus capture constant : Bool) : Reader (List Bound) := do
  let constantNext := either (groupNext .square) (wordNext "const")
  let goesOn := anyOf [anyWordNext, symbolNext "::", symbolNext "?", lifetimeNext,
    groupNext .round, fun trees => constant && constantNext trees]
  let (found, _) ← iterate
    (fun (found, done) => do
      if done then return none
      let bound ← nested (.bound capture constant)
      if ← whereAllowed plus (optionalSymbol "+") then
        return some (bound :: found, !(← sees goesOn))
      else
        return some (bound :: found, true))
    (([] : List Bound), false)
  return found.reverse

end ProgramGraph.Grammar
