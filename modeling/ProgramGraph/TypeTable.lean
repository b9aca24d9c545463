import ProgramGraph.Node
import ProgramGraph.Table

/-!
# Types of nodes

A type table remembers the written type of nodes.  Annotations say nothing about
subtyping, so one node may be assigned to another only when both have a type and
the two are written alike.
-/

namespace ProgramGraph

/-- The written types of nodes. -/
structure TypeTable where
  types : Table NodeId String := {}
  deriving Repr, Inhabited, DecidableEq

namespace TypeTable

/-- Record the type of a node, in place of an earlier one. -/
def insert (table : TypeTable) (id : NodeId) (type : String) : TypeTable where
  types := table.types.set id type

/-- The type of a node, if it is known. -/
def typeOf? (table : TypeTable) (id : NodeId) : Option String :=
  table.types.get? id

/-- How many nodes have a type. -/
def size (table : TypeTable) : Nat :=
  table.types.size

/-- Whether no node has a type. -/
def isEmpty (table : TypeTable) : Bool :=
  table.size == 0

/-- Whether a value of one node may be assigned to another. -/
def isAssignable (table : TypeTable) (source target : NodeId) : Bool :=
  match table.typeOf? source, table.typeOf? target with
  | some left, some right => left == right
  | _, _ => false

@[simp]
theorem typeOf?_insert (table : TypeTable) (id other : NodeId) (type : String) :
    (table.insert id type).typeOf? other =
      if id = other then some type else table.typeOf? other :=
  Table.get?_set table.types id other type

end TypeTable

end ProgramGraph
