import ProgramGraph.Grammar.Path

/-!
# Types

A type is told apart by its first tree.  A path becomes a list of bounds when a
plus sign follows it, where these are allowed; a type in round brackets becomes
the first of the bounds when it could stand for a trait.
-/

namespace ProgramGraph.Grammar

open Source

variable (nested : Nested)

/-- What the bounds show, in order. -/
def partsOf (bounds : List Bound) : List Outline :=
  (bounds.map Bound.parts).flatten

/-- Whether the arguments of a macro come next: a group in any brackets. -/
def anyGroupNext : Look :=
  anyOf [groupNext .round, groupNext .square, groupNext .curly]

/-- Take the exclamation mark and the arguments of a macro. -/
def macroArguments : Reader Unit := do
  symbol "!"
  takeWhere anyGroupNext 1

/-- Whether an exclamation mark comes next that begins no comparison. -/
def exclamationNext : Look :=
  without (symbolNext "!") (symbolNext "!=")

/-! ## Lists of bounds -/

/-- Bounds of which one at least is a trait or text kept as it stands. -/
def bindingBounds (start : Nat) (plus capture constant : Bool) : Reader (List Bound) := do
  let found ← boundList nested plus capture constant
  if found.any (fun bound => bound.form == .trait || bound.form == .verbatim) then return found
  else failAt start

/-- The bounds after the first one, each after a plus sign, with no plus sign at
the end. -/
def furtherBounds : Reader (List Bound) :=
  gather do
    if ← optionalSymbol "+" then return some (← nested (.bound false false)) else return none

/-- The bounds after the first one, each after a plus sign; the last plus sign may
have no bound after it. -/
def openBounds : Reader (List Bound × Bool) := do
  let goesOn := anyOf [anyWordNext, symbolNext "::", symbolNext "?", lifetimeNext,
    groupNext .round]
  let (found, _, hanging) ← iterate
    (fun (found, done, hanging) => do
      if !(← whereAllowed (!done) (optionalSymbol "+")) then return none
      else if ← sees goesOn then
        return some ((← nested (.bound false false)) :: found, false, hanging)
      else return some (found, true, true))
    (([] : List Bound), false, false)
  return (found.reverse, hanging)

/-! ## Function pointers -/

/-- The linkage of a function, if it is given. -/
def optionalLinkage : Reader Unit := do
  if ← optionalWord "extern" then
    let _ ← takeIf stringNext 1

/-- A word that may name a parameter. -/
def parameterNameNext : Look :=
  either identifierNext (wordNext "_")

/-- A parameter of a function pointer: a type, perhaps with a name before it.  The
first one may be a receiver, which is kept as it stands. -/
def pointerParameter (receiver : Bool) : Reader (List Outline) := do
  let start ← here
  let mutable ← if receiver then takeIf (both (wordNext "mut") (second (wordNext "self"))) 1
    else pure false
  let isReceiver ← sees (without (wordNext "self") parameterNameNext)
  let named := without (second (symbolNext ":")) (second (symbolNext "::"))
  let names ←
    if (← sees (both parameterNameNext named)) || receiver && isReceiver && (← sees named) then
      let name ← anyWord
      symbol ":"
      pure [name]
    else
      pure []
  let receiverNext := both (wordNext "mut") (second (wordNext "self"))
  if receiver && !(isReceiver && !names.isEmpty) && (← sees receiverNext) then
    takeMany 2
    return [← element (.type .other) start []]
  else if mutable && names.isEmpty then
    word "self"
    return [← element (.type .other) start []]
  else
    let type ← nested (.type true)
    if mutable then return [← element (.type .other) start []]
    else return names ++ [type]

/-- Whether the mark for any number of parameters comes next, perhaps named. -/
def variadicNext : Look :=
  either (symbolNext "...")
    (both parameterNameNext (both (second (symbolNext ":")) (third (symbolNext "..."))))

/-- The parameters of a function pointer. -/
def pointerParameters : Reader (List Outline) := do
  let (found, _, _) ← iterate
    (fun (found, count, done) => do
      if done || (← atEnd) then return none
      let attributes ← outerAttributes nested
      if ← sees variadicNext then
        let names ← if ← sees parameterNameNext then
            let name ← anyWord
            symbol ":"
            pure [name]
          else
            pure []
        symbol "..."
        let _ ← optionalSymbol ","
        return some ((attributes ++ names) :: found, count + 1, true)
      else
        let parts ← pointerParameter nested (count == 0)
        if !(← atEnd) then symbol ","
        return some ((attributes ++ parts) :: found, count + 1, false))
    (([] : List (List Outline)), 0, false)
  return found.reverse.flatten

/-- A function pointer after the parameters that it is given for all of. -/
def functionPointer (start : Nat) (lifetimes : List Outline) : Reader Outline := do
  let _ ← optionalWord "unsafe"
  optionalLinkage
  word "fn"
  let parameters ← inside .round (pointerParameters nested)
  let output ← returned nested false
  element (.type .bareFn) start (lifetimes ++ parameters ++ output)

/-! ## The other types -/

/-- A type in round brackets: a tuple, a list of bounds or a type by itself. -/
def enclosedType (plus : Bool) : Reader Outline := do
  let start ← here
  let (form, parts) ← inside .round do
    if ← atEnd then
      return (TypeForm.tuple, [])
    else if ← sees lifetimeNext then
      let start ← here
      let bounds ← bindingBounds nested start true false false
      return (.parenthesized, [← element (.type (.traitObject false)) start (partsOf bounds)])
    else if ← sees (symbolNext "?") then
      let bound ← traitBound nested false
      return (.traitObject true, bound.parts)
    else
      let type ← nested (.type true)
      if ← optionalSymbol "," then
        return (.tuple, type :: (← separated "," (nested (.type true))))
      else
        return (.parenthesized, [type])
  match form with
  | .traitObject _ =>
      let bounds ← furtherBounds nested
      element (.type (.traitObject bounds.isEmpty)) start (parts ++ partsOf bounds)
  | .parenthesized =>
      let canBind := match parts.map Outline.form? with
        | [some (.type (.path false _))] | [some (.type (.traitObject true))] => true
        | _ => false
      if plus && canBind && (← sees (symbolNext "+")) then
        let bounds ← furtherBounds nested
        let first := (parts.map Outline.children).flatten
        element (.type (.traitObject false)) start (first ++ partsOf bounds)
      else
        element (.type .parenthesized) start parts
  | form => element (.type form) start parts

/-- A type that is given by a path: a macro call, a list of bounds, or the path. -/
def namedType (start : Nat) (lifetimes : Option (List Outline)) (plus : Bool) : Reader Outline := do
  let path ← typePath nested
  if path.qualified then
    element (.type (.path true false)) start path.parts
  else if path.plain && (← sees exclamationNext) then
    macroArguments
    element (.type .other) start path.parts
  else if lifetimes.isSome || plus && (← sees (symbolNext "+")) then
    let (bounds, hanging) ← if plus then openBounds nested else pure ([], false)
    element (.type (.traitObject (bounds.isEmpty && !hanging))) start
      (lifetimes.getD [] ++ path.parts ++ partsOf bounds)
  else
    element (.type (.path false path.single)) start path.parts

/-- A slice or an array. -/
def sequenceType : Reader Outline := do
  let start ← here
  let (form, parts) ← inside .square do
    let type ← nested (.type true)
    if ← optionalSymbol ";" then
      return (TypeForm.array, [type, ← nested (.expression true)])
    else
      return (.slice, [type])
  element (.type form) start parts

/-- The words that a type may begin with after the parameters that it is given for
all of. -/
def afterLifetimes : Look :=
  either identifierNext
    (oneOfWords ["fn", "unsafe", "extern", "super", "self", "Self", "crate"])

/-- A type; whether it may be a list of bounds joined by plus signs. -/
def type (plus : Bool) : Reader Outline := do
  let start ← here
  let (lifetimes, given) ← forLifetimes nested
  if given then guardThat afterLifetimes
  if ← sees (groupNext .round) then
    enclosedType nested plus
  else if ← sees (oneOfWords ["fn", "unsafe", "extern"]) then
    functionPointer nested start lifetimes
  else if ← sees
      (anyOf [identifierNext, oneOfWords placeWords, symbolNext "::", symbolNext "<"]) then
    namedType nested start (if given then some lifetimes else none) plus
  else if ← optionalWord "dyn" then
    let star ← optionalSymbol "*"
    let bounds ← bindingBounds nested start plus false false
    if star then element (.type .other) start []
    else element (.type (.traitObject false)) start (partsOf bounds)
  else if ← sees (groupNext .square) then
    sequenceType nested
  else if ← optionalSymbol "*" then
    takeWhere (oneOfWords ["const", "mut"]) 1
    element (.type .pointer) start [← nested (.type false)]
  else if ← optionalSymbol "&" then
    let lifetime ← optionalLifetime
    let _ ← optionalWord "mut"
    element (.type .reference) start (lifetime ++ [← nested (.type false)])
  else if ← optionalSymbol "!" then
    element (.type .never) start []
  else if ← optionalWord "impl" then
    let bounds ← bindingBounds nested start plus true true
    element (.type .implTrait) start (partsOf bounds)
  else if ← optionalWord "_" then
    element (.type .infer) start []
  else if ← sees lifetimeNext then
    let bounds ← bindingBounds nested start true false false
    element (.type (.traitObject (bounds.length == 1))) start (partsOf bounds)
  else
    fail

end ProgramGraph.Grammar
