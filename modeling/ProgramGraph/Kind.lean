/-!
# Kinds of nodes and edges

The closed vocabulary of a program graph: sixteen kinds of nodes and seventeen
kinds of edges.  Every kind has one upper-case name, used alike in records, in
drawings and in messages, and one place in the list of all kinds, used by the
binary record format.

The main facts are that names and places both determine the kind, so a stored
name or number is read back as the kind that was written.
-/

namespace ProgramGraph

/-- What a node of the graph stands for. -/
inductive NodeKind where
  | token
  | astElement
  | commentLine
  | commentBlock
  | commentJavadoc
  | astRoot
  | identifierToken
  | fakeAst
  | symbol
  | symbolType
  | symbolVariable
  | symbolMethod
  | type
  | methodSignature
  | astLeaf
  | syntheticAstElement
  deriving DecidableEq, Repr, Inhabited

namespace NodeKind

/-- All node kinds, in the order that numbers them. -/
def all : List NodeKind :=
  [token, astElement, commentLine, commentBlock, commentJavadoc, astRoot,
    identifierToken, fakeAst, symbol, symbolType, symbolVariable, symbolMethod,
    type, methodSignature, astLeaf, syntheticAstElement]

/-- The written name of a kind. -/
def name : NodeKind → String
  | token => "TOKEN"
  | astElement => "AST_ELEMENT"
  | commentLine => "COMMENT_LINE"
  | commentBlock => "COMMENT_BLOCK"
  | commentJavadoc => "COMMENT_JAVADOC"
  | astRoot => "AST_ROOT"
  | identifierToken => "IDENTIFIER_TOKEN"
  | fakeAst => "FAKE_AST"
  | symbol => "SYMBOL"
  | symbolType => "SYMBOL_TYP"
  | symbolVariable => "SYMBOL_VAR"
  | symbolMethod => "SYMBOL_MTH"
  | type => "TYPE"
  | methodSignature => "METHOD_SIGNATURE"
  | astLeaf => "AST_LEAF"
  | syntheticAstElement => "SYNTHETIC_AST_ELEMENT"

/-- The kind with a given written name. -/
def ofName? (text : String) : Option NodeKind :=
  all.find? (·.name == text)

/-- The place of a kind in `all`. -/
def index (kind : NodeKind) : Nat :=
  all.idxOf kind

/-- The kind at a place of `all`. -/
def ofIndex? (place : Nat) : Option NodeKind :=
  all[place]?

/-- Pruning removes nodes of these kinds once nothing follows them. -/
def isPrunable : NodeKind → Bool
  | astElement | syntheticAstElement => true
  | _ => false

theorem mem_all (kind : NodeKind) : kind ∈ all := by
  cases kind <;> decide

@[simp]
theorem ofName?_name (kind : NodeKind) : ofName? kind.name = some kind := by
  cases kind <;> decide

end NodeKind

/-- How the source of an edge relates to its target. -/
inductive EdgeKind where
  | associatedToken
  | nextToken
  | astChild
  | none
  | lastWrite
  | lastUse
  | computedFrom
  | returnsTo
  | formalArgName
  | guardedBy
  | guardedByNegation
  | lastLexicalUse
  | comment
  | associatedSymbol
  | hasType
  | assignableTo
  | methodSignature
  deriving DecidableEq, Repr, Inhabited

namespace EdgeKind

/-- All edge kinds, in the order that numbers them. -/
def all : List EdgeKind :=
  [associatedToken, nextToken, astChild, none, lastWrite, lastUse, computedFrom,
    returnsTo, formalArgName, guardedBy, guardedByNegation, lastLexicalUse,
    comment, associatedSymbol, hasType, assignableTo, methodSignature]

/-- The written name of a kind. -/
def name : EdgeKind → String
  | associatedToken => "ASSOCIATED_TOKEN"
  | nextToken => "NEXT_TOKEN"
  | astChild => "AST_CHILD"
  | none => "NONE"
  | lastWrite => "LAST_WRITE"
  | lastUse => "LAST_USE"
  | computedFrom => "COMPUTED_FROM"
  | returnsTo => "RETURNS_TO"
  | formalArgName => "FORMAL_ARG_NAME"
  | guardedBy => "GUARDED_BY"
  | guardedByNegation => "GUARDED_BY_NEGATION"
  | lastLexicalUse => "LAST_LEXICAL_USE"
  | comment => "COMMENT"
  | associatedSymbol => "ASSOCIATED_SYMBOL"
  | hasType => "HAS_TYPE"
  | assignableTo => "ASSIGNABLE_TO"
  | methodSignature => "METHOD_SIGNATURE"

/-- The kind with a given written name. -/
def ofName? (text : String) : Option EdgeKind :=
  all.find? (·.name == text)

/-- The place of a kind in `all`. -/
def index (kind : EdgeKind) : Nat :=
  all.idxOf kind

/-- The kind at a place of `all`. -/
def ofIndex? (place : Nat) : Option EdgeKind :=
  all[place]?

/-- Edges of these kinds follow from the shape of the source alone. -/
def isStructural : EdgeKind → Bool
  | astChild | nextToken => true
  | _ => false

theorem mem_all (kind : EdgeKind) : kind ∈ all := by
  cases kind <;> decide

@[simp]
theorem ofName?_name (kind : EdgeKind) : ofName? kind.name = some kind := by
  cases kind <;> decide

end EdgeKind

end ProgramGraph
