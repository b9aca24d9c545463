import ProgramGraph.Source.Span

/-!
# Outlines

An outline is what a graph keeps of the syntax of a file: its elements with their
labels and spans, nested as in the source, and within them the names that occur,
the documentation and the places where a pattern is given a type.  The children
of an element come in the order in which they are visited, attributes first;
this is the order of their ids, and it is not always the order of the text.

Elements are items, statements, expressions, patterns and types.  Each has a form
that decides its label.  A form may carry a fact about the element that the
grammar asks for and the label does not show.
-/

namespace ProgramGraph

open Source (Span)

/-- The forms of items. -/
inductive ItemForm where
  | constItem
  | enumItem
  | externCrate
  | fnItem
  | foreignMod
  | implItem
  | macroItem
  | modItem
  | staticItem
  | structItem
  | traitItem
  | traitAlias
  | typeItem
  | unionItem
  | useItem
  /-- Text that is kept as it stands. -/
  | verbatim
  deriving DecidableEq, Repr, Inhabited

/-- The forms of statements. -/
inductive StatementForm where
  | letBinding
  | item
  | expression
  | macroCall
  deriving DecidableEq, Repr, Inhabited

/-- The forms of expressions. -/
inductive ExpressionForm where
  | array
  | assignment
  | asyncBlock
  | await
  /-- An operator between two operands; whether it compares them. -/
  | binary (comparison : Bool)
  | block
  | breakOut
  | call
  | cast
  | closure
  | continueOn
  | field
  | forLoop
  | ifElse
  | index
  | letCondition
  | literal
  | loop
  /-- A macro call; whether its arguments stand in curly brackets. -/
  | macroCall (curly : Bool)
  | matchOn
  | methodCall
  | parenthesized
  | path
  | range
  | reference
  | returnValue
  | structLiteral
  | question
  | tuple
  | unary
  | unsafeBlock
  | whileLoop
  | constBlock
  | tryBlock
  /-- A form that has no label of its own. -/
  | other
  /-- Text that is kept as it stands. -/
  | verbatim
  deriving DecidableEq, Repr, Inhabited

/-- The forms of patterns. -/
inductive PatternForm where
  | binding
  | literal
  | alternatives
  | path
  /-- A range; where its limits stand, if one of its ends is left open. -/
  | range (openAt : Option Nat)
  | reference
  | rest
  | slice
  | structPattern
  | tuple
  | tupleStruct
  | typed
  | wildcard
  /-- A form that has no label of its own. -/
  | other
  /-- Text that is kept as it stands. -/
  | verbatim
  deriving DecidableEq, Repr, Inhabited

/-- The forms of types. -/
inductive TypeForm where
  | array
  | bareFn
  | implTrait
  | infer
  | never
  | parenthesized
  /-- A path; whether it begins with a type in angle brackets, and whether it is a
  single name, perhaps with arguments in angle brackets. -/
  | path (qualified single : Bool)
  | pointer
  | reference
  | slice
  /-- A list of bounds; whether it is one bound and no more. -/
  | traitObject (single : Bool)
  | tuple
  /-- A form that has no label of its own. -/
  | other
  deriving DecidableEq, Repr, Inhabited

/-- What an element of the syntax is. -/
inductive Form where
  | item (form : ItemForm)
  | statement (form : StatementForm)
  | expression (form : ExpressionForm)
  | pattern (form : PatternForm)
  | type (form : TypeForm)
  deriving DecidableEq, Repr, Inhabited

namespace Form

/-- The label of an element. -/
def label : Form → String
  | item .constItem => "ItemConst"
  | item .enumItem => "ItemEnum"
  | item .externCrate => "ItemExternCrate"
  | item .fnItem => "ItemFn"
  | item .foreignMod => "ItemForeignMod"
  | item .implItem => "ItemImpl"
  | item .macroItem => "ItemMacro"
  | item .modItem => "ItemMod"
  | item .staticItem => "ItemStatic"
  | item .structItem => "ItemStruct"
  | item .traitItem => "ItemTrait"
  | item .traitAlias => "ItemTraitAlias"
  | item .typeItem => "ItemType"
  | item .unionItem => "ItemUnion"
  | item .useItem => "ItemUse"
  | item .verbatim => "Item"
  | statement .letBinding => "StmtLocal"
  | statement .item => "StmtItem"
  | statement .expression => "StmtExpr"
  | statement .macroCall => "StmtMacro"
  | expression .array => "ExprArray"
  | expression .assignment => "ExprAssign"
  | expression .asyncBlock => "ExprAsync"
  | expression .await => "ExprAwait"
  | expression (.binary _) => "ExprBinary"
  | expression .block => "ExprBlock"
  | expression .breakOut => "ExprBreak"
  | expression .call => "ExprCall"
  | expression .cast => "ExprCast"
  | expression .closure => "ExprClosure"
  | expression .continueOn => "ExprContinue"
  | expression .field => "ExprField"
  | expression .forLoop => "ExprForLoop"
  | expression .ifElse => "ExprIf"
  | expression .index => "ExprIndex"
  | expression .letCondition => "ExprLet"
  | expression .literal => "ExprLit"
  | expression .loop => "ExprLoop"
  | expression (.macroCall _) => "ExprMacro"
  | expression .matchOn => "ExprMatch"
  | expression .methodCall => "ExprMethodCall"
  | expression .parenthesized => "ExprParen"
  | expression .path => "ExprPath"
  | expression .range => "ExprRange"
  | expression .reference => "ExprReference"
  | expression .returnValue => "ExprReturn"
  | expression .structLiteral => "ExprStruct"
  | expression .question => "ExprTry"
  | expression .tuple => "ExprTuple"
  | expression .unary => "ExprUnary"
  | expression .unsafeBlock => "ExprUnsafe"
  | expression .whileLoop => "ExprWhile"
  | expression .constBlock => "Expr"
  | expression .tryBlock => "Expr"
  | expression .other => "Expr"
  | expression .verbatim => "Expr"
  | pattern .binding => "PatIdent"
  | pattern .literal => "PatLit"
  | pattern .alternatives => "PatOr"
  | pattern .path => "PatPath"
  | pattern (.range _) => "PatRange"
  | pattern .reference => "PatReference"
  | pattern .rest => "PatRest"
  | pattern .slice => "PatSlice"
  | pattern .structPattern => "PatStruct"
  | pattern .tuple => "PatTuple"
  | pattern .tupleStruct => "PatTupleStruct"
  | pattern .typed => "PatType"
  | pattern .wildcard => "PatWild"
  | pattern .other => "Pat"
  | pattern .verbatim => "Pat"
  | type .array => "TypeArray"
  | type .bareFn => "TypeBareFn"
  | type .implTrait => "TypeImplTrait"
  | type .infer => "TypeInfer"
  | type .never => "TypeNever"
  | type .parenthesized => "TypeParen"
  | type (.path _ _) => "TypePath"
  | type .pointer => "TypePtr"
  | type .reference => "TypeReference"
  | type .slice => "TypeSlice"
  | type (.traitObject _) => "TypeTraitObject"
  | type .tuple => "TypeTuple"
  | type .other => "Type"

/-- Whether the text of an element is kept as it stands, so that it takes no
attributes. -/
def isVerbatim : Form → Bool
  | item .verbatim => true
  | expression .verbatim => true
  | pattern .verbatim => true
  | _ => false

end Form

namespace ExpressionForm

/-- Expressions that end a statement or a match arm with their block and need no
mark after it. -/
def isBlockLike : ExpressionForm → Bool
  | ifElse | matchOn | block | unsafeBlock | whileLoop | loop | forLoop | tryBlock
  | constBlock => true
  | _ => false

/-- Whether a statement of this form needs a semicolon before another one. -/
def needsSemicolon : ExpressionForm → Bool
  | macroCall curly => !curly
  | form => !form.isBlockLike

end ExpressionForm

/-- What a graph keeps of a piece of syntax. -/
inductive Outline where
  /-- An element with its attributes and its other children. -/
  | element (form : Form) (span : Span) (attributes children : List Outline)
  /-- The occurrence of a name. -/
  | name (span : Span)
  /-- A documentation attribute with its text. -/
  | document (span : Span) (text : String)
  /-- A pattern that is given a type. -/
  | ascription (attributes : List Outline) (pattern type : Outline)
  deriving Repr, Inhabited

namespace Outline

/-- The stretch of source that an outline covers; a pattern with a type is known
by its pattern. -/
def span : Outline → Span
  | element _ span _ _ => span
  | name span => span
  | document span _ => span
  | ascription _ pattern _ => pattern.span

/-- What an outline is, if it is an element. -/
def form? : Outline → Option Form
  | element form _ _ _ => some form
  | _ => none

/-- The form of an expression; other outlines count as text kept as it
stands. -/
def expressionForm : Outline → ExpressionForm
  | element (.expression form) _ _ _ => form
  | _ => .verbatim

/-- The children of an element, attributes left out. -/
def children : Outline → List Outline
  | element _ _ _ children => children
  | _ => []

/-- The attributes of an element. -/
def attributes : Outline → List Outline
  | element _ _ attributes _ => attributes
  | _ => []

/-- Put attributes that begin at `start` before those of an element.  Text that is
kept as it stands loses them. -/
def attach (start : Nat) (new : List Outline) : Outline → Outline
  | element form span attributes children =>
      if form.isVerbatim || new.isEmpty then element form span attributes children
      else element form { span with first := start } (new ++ attributes) children
  | outline => outline

/-- Put the attributes of a statement before those of the expression that the
statement begins with: the first operand of operators, assignments and casts,
however deep it stands. -/
def attachLeft (start : Nat) (new : List Outline) : Outline → Outline
  | element (.expression form) span attributes (left :: children) =>
      if form = .assignment || form = .cast || form = .binary true || form = .binary false then
        if new.isEmpty then element (.expression form) span attributes (left :: children)
        else
          let left := left.attachLeft start new
          let first := if left.span.first == start then start else span.first
          element (.expression form) { span with first } attributes (left :: children)
      else
        attach start new (element (.expression form) span attributes (left :: children))
  | outline => attach start new outline

end Outline

end ProgramGraph
