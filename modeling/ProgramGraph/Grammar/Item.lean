import ProgramGraph.Grammar.Statement

/-!
# Items

An item is told apart by the words after its visibility.  Its children are its
visibility, its name, its generic parameters with the conditions on them, and then
what it holds, whatever the order in the text.

Some items are accepted although they mean nothing, such as a function without a
body outside of a trait.  They are kept as they stand: nothing of what they hold
is shown, and they take no attributes.
-/

namespace ProgramGraph.Grammar

open Source

variable (nested : Nested)

/-! ## Visibility -/

/-- The brackets after `pub` that limit a visibility, with the path that they
give. -/
def restriction : Reader (List Outline) :=
  inside .round do
    if ← sees (oneOfWords ["crate", "self", "super"]) then
      let name ← anyWord
      if ← atEnd then return [name] else fail
    else
      word "in"
      plainPath

/-- Whether brackets come next that limit a visibility to a path. -/
def restrictionNext : Look
  | .group (some .round) _ _ (.leaf ⟨.word, text, _⟩ :: inner) :: _ =>
      text == "in" || ["crate", "self", "super"].contains text && inner.isEmpty
  | _ => false

/-- The visibility of an item: what its path shows, and whether one is given. -/
def visibility : Reader (List Outline × Bool) := do
  if ← optionalWord "pub" then
    if ← sees restrictionNext then return (← restriction, true) else return ([], true)
  else
    return ([], false)

/-! ## Functions -/

/-- Whether a function comes next, and whether `safe` may stand before it. -/
def functionNext (safe : Bool) : Reader Bool := do
  let found ← lookAhead do
    let _ ← optionalWord "const"
    let _ ← optionalWord "async"
    if !(← whereAllowed safe (optionalWord "safe")) then
      let _ ← optionalWord "unsafe"
    optionalLinkage
    sees (wordNext "fn")
  return found == some true

/-- A receiver: what it shows, and where its word stands. -/
def receiver : Reader (List Outline × Nat) := do
  let start ← here
  let borrowed ← optionalSymbol "&"
  let lifetime ← if borrowed then optionalLifetime else pure []
  let _ ← optionalWord "mut"
  let place ← here
  let name ← nameWhere (wordNext "self")
  if ← whereAllowed (!borrowed) (optionalSymbol ":") then
    return ([← nested (.type true)], place)
  let self := .element (.type (.path false true)) name.span [] [name]
  if borrowed then
    return (lifetime ++ [← element (.type .reference) start (lifetime ++ [self])], place)
  else
    return ([self], place)

/-- What a parameter is. -/
inductive Parameter where
  /-- The receiver of a method, and where its word stands. -/
  | receiver (parts : List Outline) (place : Nat)
  /-- A pattern with its type. -/
  | typed (parts : List Outline)
  /-- Any number of parameters. -/
  | variadic (parts : List Outline)

/-- A parameter after its attributes.  A type with arguments may stand without a
pattern; the pattern then counts as one that matches anything. -/
def parameter (attributes : List Outline) : Reader Parameter := do
  if ← optionalSymbol "..." then return .variadic attributes
  match ← attempt (receiver nested) with
  | some (parts, place) => return .receiver (attributes ++ parts) place
  | none =>
      if ← sees (both identifierNext (second (symbolNext "<"))) then
        let first := (← get).rest.head?.map fun tree => Span.mk tree.first tree.last
        let pattern := .element (.pattern .wildcard) (first.getD default) [] []
        return .typed [.ascription attributes pattern (← nested (.type true))]
      let pattern ← nested .pattern
      symbol ":"
      if ← optionalSymbol "..." then return .variadic (attributes ++ [pattern])
      else return .typed [.ascription attributes pattern (← nested (.type true))]

/-- The parameters of a function.  Only the first one may be a receiver. -/
def parameters : Reader (List Outline) := do
  let (found, _) ← iterate
    (fun (found, done) => do
      if done || (← atEnd) then return none
      let attributes ← outerAttributes nested
      let (parts, last) ← match ← parameter nested attributes with
        | .receiver parts place => if found.isEmpty then pure (parts, false) else failAt place
        | .typed parts => pure (parts, false)
        | .variadic parts => pure (parts, true)
      if !(← atEnd) then symbol ","
      return some (parts :: found, last))
    (([] : List (List Outline)), false)
  return found.reverse.flatten

/-- The words before the name of a function. -/
def functionWords : Reader Unit := do
  let _ ← optionalWord "const"
  let _ ← optionalWord "async"
  let _ ← optionalWord "unsafe"
  optionalLinkage
  word "fn"

/-- A function without its body.  The conditions on its generic parameters come at
the end of the text, and are shown before the parameters. -/
def signature : Reader (List Outline) := do
  functionWords
  let name ← identifier
  let (generics, _) ← genericParameters nested
  let inputs ← inside .round (parameters nested)
  let output ← returned nested true
  let (conditions, _) ← conditions nested
  return name :: (generics ++ conditions ++ inputs ++ output)

/-! ## Parts of items -/

/-- The name of a constant, which may be left out. -/
def constantName : Reader Outline :=
  nameWhere (either identifierNext (wordNext "_"))

/-- A constant after its first word. -/
structure Constant where
  parts : List Outline
  /-- Whether it has a value. -/
  hasValue : Bool
  /-- Whether it has generic parameters or conditions on them. -/
  isGeneric : Bool

/-- A constant after its first word. -/
def constant : Reader Constant := do
  let name ← constantName
  let (generics, angled) ← genericParameters nested
  symbol ":"
  let type ← nested (.type true)
  let value ← if ← optionalSymbol "=" then (do return [← nested (.expression true)]) else pure []
  let (_, conditional) ← conditions nested
  symbol ";"
  return {
    parts := name :: (generics ++ type :: value)
    hasValue := !value.isEmpty
    isGeneric := angled || conditional }

/-- Where the conditions on the generic parameters of a type may stand. -/
inductive ConditionPlace where
  | before
  | after
  | both
  deriving DecidableEq

/-- The definition of a type after its first word. -/
structure TypeDefinition where
  /-- Its name with its generic parameters and the conditions on them. -/
  name : List Outline
  bounds : List Outline
  definition : List Outline
  /-- Whether a colon announces bounds. -/
  isBounded : Bool

/-- The bounds after a colon, with a plus sign between neighbours, until a look
succeeds. -/
def boundsUntil (stop : Look) : Reader (List Outline) := do
  let found ← listed "+" stop (nested (.bound false true))
  return partsOf found

/-- The definition of a type after its first word. -/
def typeDefinition (place : ConditionPlace) : Reader TypeDefinition := do
  word "type"
  let name ← identifier
  let (generics, _) ← genericParameters nested
  let isBounded ← optionalSymbol ":"
  let bounds ←
    if isBounded then
      boundsUntil nested (anyOf [wordNext "where", symbolNext "=", symbolNext ";"])
    else
      pure []
  let (early, given) ← if place = .after then pure ([], false) else conditions nested
  let definition ← if ← optionalSymbol "=" then (do return [← nested (.type true)]) else pure []
  let (late, _) ← if given || place = .before then pure ([], false) else conditions nested
  symbol ";"
  return { name := name :: (generics ++ early ++ late), bounds, definition, isBounded }

/-- A field with a name.  One without a name may have fields in place of a type; these
are not shown. -/
def namedField : Reader (List Outline) := do
  let attributes ← outerAttributes nested
  let (restriction, _) ← visibility
  let blank ← sees (wordNext "_")
  let name ← nameWhere (either identifierNext (wordNext "_"))
  symbol ":"
  let unionNext := both (wordNext "union") (second (groupNext .curly))
  if blank && (← sees (either (wordNext "struct") unionNext)) then
    let start ← here
    takeMany 1
    let _ ← nested .fields
    return attributes ++ restriction ++ [name, ← element (.type .other) start []]
  else
    return attributes ++ restriction ++ [name, ← nested (.type true)]

/-- The fields of a struct by name. -/
def namedFields : Reader (List Outline) := do
  return (← inside .curly (separated "," (namedField nested))).flatten

/-- A field that is known by its place. -/
def placedField : Reader (List Outline) := do
  let attributes ← outerAttributes nested
  let (restriction, _) ← visibility
  return attributes ++ restriction ++ [← nested (.type true)]

/-- The fields of a struct by place. -/
def placedFields : Reader (List Outline) := do
  return (← inside .round (separated "," (placedField nested))).flatten

/-- A variant of an enumeration.  It may be given a visibility, which is not
shown. -/
def variant : Reader (List Outline) := do
  let attributes ← outerAttributes nested
  let _ ← visibility
  let name ← identifier
  let fields ←
    if ← sees (groupNext .curly) then namedFields nested
    else if ← sees (groupNext .round) then placedFields nested
    else pure []
  let value ← if ← optionalSymbol "=" then (do return [← nested (.expression true)]) else pure []
  return attributes ++ name :: (fields ++ value)

/-- A macro call as an item: its path, and perhaps the name of what it defines, if it
may define something. -/
def macroItem (definesName : Bool) : Reader (List Outline) := do
  let names ← plainPath
  symbol "!"
  let name ←
    if definesName && (← sees (either identifierNext (wordNext "try"))) then
      (do return [← anyWord])
    else
      pure []
  takeWhere anyGroupNext 1
  if !(← get).curly then symbol ";"
  return name ++ names

/-- Whether a macro call comes next, if an item does. -/
def macroNext : Look :=
  anyOf [identifierNext, oneOfWords ["self", "super", "crate"], symbolNext "::"]

/-- The items of a group in curly brackets, and the attributes at its beginning. -/
def itemGroup (reader : Reader (List Outline)) : Reader (List Outline × List Outline) :=
  inside .curly do
    let attributes ← innerAttributes nested
    return (attributes, (← everything reader).flatten)

/-! ## Items of traits, implementations and foreign modules -/

/-- An item of a trait.  One with a visibility or a default mark is not shown. -/
def traitItem : Reader (List Outline) := do
  let attributes ← outerAttributes nested
  let (_, visible) ← visibility
  let isDefault ← optionalWord "default"
  let shown := !visible && !isDefault
  let constantFunction :=
    both (wordNext "const") (second (oneOfWords ["async", "unsafe", "extern"]))
  if (← functionNext false) || (← sees constantFunction) then
    let head ← signature nested
    let (own, body) ←
      if ← optionalSymbol ";" then pure ([], []) else blockWithAttributes nested
    if shown then return attributes ++ own ++ head ++ body else return []
  else if ← optionalWord "const" then
    let constant ← constant nested
    if shown && !constant.isGeneric then return attributes ++ constant.parts else return []
  else if ← sees (wordNext "type") then
    let type ← typeDefinition nested .after
    if shown then return attributes ++ type.name ++ type.bounds ++ type.definition else return []
  else if shown && (← sees macroNext) then
    return attributes ++ (← macroItem false)
  else
    fail

/-- An item of an implementation. -/
def implementationItem : Reader (List Outline) := do
  let attributes ← outerAttributes nested
  let (restriction, visible) ← visibility
  let isDefault ← takeIf (without (wordNext "default") (second (symbolNext "!"))) 1
  if ← functionNext false then
    let head ← signature nested
    if ← optionalSymbol ";" then return []
    let (own, body) ← blockWithAttributes nested
    return attributes ++ own ++ restriction ++ head ++ body
  else if ← optionalWord "const" then
    let constant ← constant nested
    if constant.hasValue && !constant.isGeneric then
      return attributes ++ restriction ++ constant.parts
    else
      return []
  else if ← sees (wordNext "type") then
    let type ← typeDefinition nested .after
    if type.isBounded || type.definition.isEmpty then return []
    else return attributes ++ restriction ++ type.name ++ type.definition
  else if !visible && !isDefault && (← sees macroNext) then
    return attributes ++ (← macroItem false)
  else
    fail

/-- A function of a foreign module. -/
def foreignFunction (attributes restriction : List Outline) : Reader (List Outline) := do
  let _ ← optionalWord "const"
  let _ ← optionalWord "async"
  let isUnsafe ← optionalWord "unsafe"
  let safe ← if isUnsafe then pure false else optionalWord "safe"
  let head ← signature nested
  if ← sees (groupNext .curly) then
    let _ ← blockWithAttributes nested
    return []
  else
    symbol ";"
    if safe then return [] else return attributes ++ restriction ++ head

/-- An item of a foreign module. -/
def foreignItem : Reader (List Outline) := do
  let attributes ← outerAttributes nested
  let (restriction, visible) ← visibility
  if ← functionNext true then
    foreignFunction nested attributes restriction
  else if ← sees (either (wordNext "static")
      (both (oneOfWords ["unsafe", "safe"]) (second (wordNext "static")))) then
    let isMarked ← takeIf (oneOfWords ["unsafe", "safe"]) 1
    word "static"
    let _ ← optionalWord "mut"
    let name ← identifier
    symbol ":"
    let type ← nested (.type true)
    let hasValue ← optionalSymbol "="
    if hasValue then
      let _ ← nested (.expression true)
    symbol ";"
    if isMarked || hasValue then return []
    else return attributes ++ restriction ++ [name, type]
  else if ← sees (wordNext "type") then
    let type ← typeDefinition nested .both
    if type.isBounded || !type.definition.isEmpty then return []
    else return attributes ++ restriction ++ type.name
  else if !visible && (← sees macroNext) then
    return attributes ++ (← macroItem false)
  else
    fail

/-! ## Items -/

/-- An item without the attributes before it. -/
structure ItemParts where
  form : ItemForm
  /-- The attributes at the beginning of what it holds. -/
  attributes : List Outline := []
  children : List Outline := []

/-- An item that is kept as it stands. -/
def verbatimItem : ItemParts where
  form := .verbatim

/-- A function, without a visibility. -/
def functionItem (restriction : List Outline) : Reader ItemParts := do
  let head ← signature nested
  if ← optionalSymbol ";" then return verbatimItem
  let (attributes, body) ← blockWithAttributes nested
  return { form := .fnItem, attributes, children := restriction ++ head ++ body }

/-- An import of a library, without a visibility. -/
def externCrate (restriction : List Outline) : Reader ItemParts := do
  word "extern"
  word "crate"
  let name ← nameWhere (either identifierNext (wordNext "self"))
  let rename ←
    if ← optionalWord "as" then
      (do return [← nameWhere (either identifierNext (wordNext "_"))])
    else
      pure []
  symbol ";"
  return { form := .externCrate, children := restriction ++ name :: rename }

/-- A foreign module. -/
def foreignModule : Reader ItemParts := do
  let _ ← optionalWord "unsafe"
  guardThat (wordNext "extern")
  optionalLinkage
  let (attributes, children) ← itemGroup nested (foreignItem nested)
  return { form := .foreignMod, attributes, children }

/-- The tree of an import.  There is none if a tree in it begins at the root where
another one may already do so. -/
def useTree (root : Bool) : Reader (Option (List Outline)) := do
  if ← sees (either identifierNext (oneOfWords ["self", "super", "crate", "try"])) then
    let name ← anyWord
    if ← optionalSymbol "::" then
      return (← nested (.useTree false)).map (name :: ·)
    else if ← optionalWord "as" then
      return some [name, ← nameWhere (either identifierNext (wordNext "_"))]
    else
      return some [name]
  else if ← optionalSymbol "*" then
    return some []
  else
    let trees ← inside .curly (separated "," do
      let rooted ← if root then optionalSymbol "::" else pure false
      let tree ← nested (.useTree (root && !rooted))
      return if rooted then none else tree)
    return trees.foldr
      (fun tree rest => tree.bind fun names => rest.map (names ++ ·)) (some [])

/-- An import, without a visibility. -/
def useItem (restriction : List Outline) : Reader ItemParts := do
  word "use"
  let rooted ← optionalSymbol "::"
  let tree ← nested (.useTree (!rooted))
  symbol ";"
  match tree with
  | some names => return { form := .useItem, children := restriction ++ names }
  | none => return verbatimItem

/-- A variable, without a visibility. -/
def staticItem (restriction : List Outline) : Reader ItemParts := do
  word "static"
  let _ ← optionalWord "mut"
  let name ← identifier
  if ← optionalSymbol "=" then
    let _ ← nested (.expression true)
    symbol ";"
    return verbatimItem
  symbol ":"
  let type ← nested (.type true)
  if ← optionalSymbol ";" then return verbatimItem
  symbol "="
  let value ← nested (.expression true)
  symbol ";"
  return { form := .staticItem, children := restriction ++ [name, type, value] }

/-- A constant, without a visibility. -/
def constItem (restriction : List Outline) : Reader ItemParts := do
  word "const"
  let constant ← constant nested
  if constant.hasValue && !constant.isGeneric then
    return { form := .constItem, children := restriction ++ constant.parts }
  else
    return verbatimItem

/-- A module, without a visibility. -/
def moduleItem (restriction : List Outline) : Reader ItemParts := do
  let _ ← optionalWord "unsafe"
  word "mod"
  let name ← nameWhere (either identifierNext (wordNext "try"))
  if ← optionalSymbol ";" then
    return { form := .modItem, children := restriction ++ [name] }
  let (attributes, items) ← itemGroup nested (do return [← nested .item])
  return { form := .modItem, attributes, children := restriction ++ name :: items }

/-- The name of a type, without a visibility. -/
def typeItem (restriction : List Outline) : Reader ItemParts := do
  let type ← typeDefinition nested .before
  if type.isBounded || type.definition.isEmpty then return verbatimItem
  else return { form := .typeItem, children := restriction ++ type.name ++ type.definition }

/-- A struct, without a visibility.  The conditions on the generic parameters of
one with fields by place come after these. -/
def structItem (restriction : List Outline) : Reader ItemParts := do
  word "struct"
  let name ← identifier
  let (generics, _) ← genericParameters nested
  let (early, given) ← conditions nested
  let (late, fields) ←
    if !given && (← sees (groupNext .round)) then
      let fields ← placedFields nested
      let (late, _) ← conditions nested
      symbol ";"
      pure (late, fields)
    else if ← sees (groupNext .curly) then
      pure ([], ← namedFields nested)
    else
      symbol ";"
      pure ([], [])
  return {
    form := .structItem
    children := restriction ++ name :: (generics ++ early ++ late ++ fields) }

/-- An enumeration, without a visibility. -/
def enumItem (restriction : List Outline) : Reader ItemParts := do
  word "enum"
  let name ← identifier
  let (generics, _) ← genericParameters nested
  let (conditions, _) ← conditions nested
  let variants ← inside .curly (separated "," (variant nested))
  return {
    form := .enumItem
    children := restriction ++ name :: (generics ++ conditions ++ variants.flatten) }

/-- A union, without a visibility. -/
def unionItem (restriction : List Outline) : Reader ItemParts := do
  word "union"
  let name ← identifier
  let (generics, _) ← genericParameters nested
  let (conditions, _) ← conditions nested
  let fields ← namedFields nested
  return {
    form := .unionItem, children := restriction ++ name :: (generics ++ conditions ++ fields) }

/-- What a trait holds after its name, which is shown as `head`. -/
def traitBody (head generics : List Outline) : Reader ItemParts := do
  let bounds ←
    if ← optionalSymbol ":" then boundsUntil nested (either (wordNext "where") (groupNext .curly))
    else pure []
  let (conditions, _) ← conditions nested
  let (attributes, items) ← itemGroup nested (traitItem nested)
  return {
    form := .traitItem, attributes, children := head ++ generics ++ conditions ++ bounds ++ items }

/-- A trait that is unsafe or automatic, without a visibility. -/
def markedTrait (restriction : List Outline) : Reader ItemParts := do
  let _ ← optionalWord "unsafe"
  let _ ← optionalWord "auto"
  word "trait"
  let name ← identifier
  let (generics, _) ← genericParameters nested
  traitBody nested (restriction ++ [name]) generics

/-- A trait or another name for bounds, without a visibility. -/
def traitOrAlias (restriction : List Outline) : Reader ItemParts := do
  word "trait"
  let name ← identifier
  let (generics, _) ← genericParameters nested
  if ← sees (anyOf [groupNext .curly, symbolNext ":", wordNext "where"]) then
    traitBody nested (restriction ++ [name]) generics
  else
    symbol "="
    let bounds ← boundsUntil nested (either (wordNext "where") (symbolNext ";"))
    let (conditions, _) ← conditions nested
    symbol ";"
    return {
      form := .traitAlias
      children := restriction ++ name :: (generics ++ conditions ++ bounds) }

/-- An implementation.  One with a visibility, one that is constant, and one of what
is no path to a trait are kept as they stand.  Only a trait can be denied. -/
def implementation (visible : Bool) : Reader ItemParts := do
  let _ ← optionalWord "default"
  let _ ← optionalWord "unsafe"
  word "impl"
  let (generics, _) ← if ← sees genericsNext then genericParameters nested else pure ([], false)
  let isConstant ← sees
    (either (wordNext "const") (both (symbolNext "?") (second (wordNext "const"))))
  if isConstant then
    let _ ← optionalSymbol "?"
    word "const"
  let start ← here
  let negative ← takeIf (without (symbolNext "!") (second (groupNext .curly))) 1
  let first ← nested (.type true)
  let isFor ← optionalWord "for"
  let isTrait := match first.form? with
    | some (.type (.path qualified _)) => !qualified
    | _ => false
  let about ←
    if isFor then
      let self ← nested (.type true)
      pure (if isTrait then first.children ++ [self] else [self])
    else if negative then
      failAt start
    else
      pure [first]
  let (conditions, _) ← conditions nested
  let (attributes, items) ← itemGroup nested (implementationItem nested)
  if visible || isConstant || isFor && !isTrait then return verbatimItem
  else
    return {
      form := .implItem
      attributes
      children := generics ++ conditions ++ about ++ items }

/-- The definition of a macro by its patterns, of which nothing is kept. -/
def macroDefinition : Reader ItemParts := do
  word "macro"
  let _ ← identifier
  let _ ← takeIf (groupNext .round) 1
  takeWhere (groupNext .curly) 1
  return verbatimItem

/-- An item that begins with `extern` after its visibility. -/
def externItem (restriction : List Outline) (visible : Bool) (start : Nat) : Reader ItemParts := do
  if ← sees (second (wordNext "crate")) then
    externCrate restriction
  else if ← sees (either (second (groupNext .curly))
      (both (second stringNext) (third (groupNext .curly)))) then
    if visible then failAt start else foreignModule nested
  else
    word "extern"
    let _ ← takeIf stringNext 1
    fail

/-- An item that begins with `unsafe` after its visibility. -/
def unsafeItem (restriction : List Outline) (visible : Bool) (start : Nat) : Reader ItemParts := do
  let traitNext := either (wordNext "trait") (both (wordNext "auto") (second (wordNext "trait")))
  let after (look : Look) : Look := fun trees => look (trees.drop 1)
  if ← sees (after traitNext) then
    markedTrait nested restriction
  else if ← sees (after (wordNext "impl")) then
    implementation nested visible
  else if ← sees (after (wordNext "extern")) then
    if visible then failAt start else foreignModule nested
  else if ← sees (after (wordNext "mod")) then
    moduleItem nested restriction
  else
    word "unsafe"
    fail

/-- An item without the attributes before it. -/
def bareItem : Reader ItemParts := do
  let start ← here
  let (restriction, visible) ← visibility
  if ← functionNext false then
    functionItem nested restriction
  else if ← sees (wordNext "extern") then
    externItem nested restriction visible start
  else if ← sees (wordNext "use") then
    useItem nested restriction
  else if ← sees (wordNext "static") then
    staticItem nested restriction
  else if ← sees (wordNext "const") then
    constItem nested restriction
  else if ← sees (wordNext "unsafe") then
    unsafeItem nested restriction visible start
  else if ← sees (wordNext "mod") then
    moduleItem nested restriction
  else if ← sees (wordNext "type") then
    typeItem nested restriction
  else if ← sees (wordNext "struct") then
    structItem nested restriction
  else if ← sees (wordNext "enum") then
    enumItem nested restriction
  else if ← sees (both (wordNext "union") (second identifierNext)) then
    unionItem nested restriction
  else if ← sees (wordNext "trait") then
    traitOrAlias nested restriction
  else if ← sees (both (wordNext "auto") (second (wordNext "trait"))) then
    markedTrait nested restriction
  else if ← sees (either (wordNext "impl")
      (without (wordNext "default") (second (symbolNext "!")))) then
    implementation nested visible
  else if ← sees (wordNext "macro") then
    macroDefinition
  else if !visible && (← sees macroNext) then
    return { form := .macroItem, children := ← macroItem true }
  else
    fail

/-- An item with its attributes. -/
def item : Reader Outline := do
  let start ← here
  let attributes ← outerAttributes nested
  let parts ← bareItem nested
  let attributes := if parts.form = .verbatim then [] else attributes ++ parts.attributes
  return .element (.item parts.form) (← spanFrom start) attributes parts.children

end ProgramGraph.Grammar
