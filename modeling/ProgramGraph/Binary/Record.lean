import ProgramGraph.Binary.Word
import ProgramGraph.Record

/-!
# Records as bytes

A record is written field by field without any marks between them.  Kinds are
written as their index in four bytes, all other numbers in eight.  What follows a
record is not looked at.
-/

namespace ProgramGraph

open Binary

namespace Binary

/-- Read the index of one of `count` kinds. -/
def readKind {α : Type} (ofIndex? : Nat → Option α) (count : Nat) : Reader α := do
  let index ← readNumber 4
  match ofIndex? index with
  | some kind => return kind
  | none =>
      throw (.mismatch (.value (.integer index) s!"variant index 0 <= i < {count}"))

end Binary

/-! ## Nodes and edges -/

/-- The bytes of a node. -/
def Node.toBytes (node : Node) : List UInt8 :=
  writeLong node.id ++ writeNumber 4 node.kind.index ++ writeText node.contents ++
    writeLong node.startPosition ++ writeLong node.endPosition ++
    writeLong node.startLine ++ writeLong node.endLine

/-- Read a node. -/
def Node.reader : Reader Node := do
  let id ← readLong
  let kind ← readKind NodeKind.ofIndex? NodeKind.all.length
  let contents ← readText
  let startPosition ← readLong
  let endPosition ← readLong
  let startLine ← readLong
  let endLine ← readLong
  return { id, kind, contents, startPosition, endPosition, startLine, endLine }

/-- The bytes of an edge. -/
def Edge.toBytes (edge : Edge) : List UInt8 :=
  writeLong edge.source ++ writeLong edge.target ++ writeNumber 4 edge.kind.index

/-- Read an edge. -/
def Edge.reader : Reader Edge := do
  let source ← readLong
  let target ← readLong
  let kind ← readKind EdgeKind.ofIndex? EdgeKind.all.length
  return { source, target, kind }

/-! ## Records -/

/-- The bytes of a record. -/
def Record.toBytes (record : Record) : List UInt8 :=
  writeText record.sourceFile ++ writeList Node.toBytes record.nodes ++
    writeList Edge.toBytes record.edges

/-- Read a record at the front of bytes. -/
def Record.binaryReader : Reader Record := do
  let sourceFile ← readText
  let nodes ← readList Node.reader
  let edges ← readList Edge.reader
  return { sourceFile, nodes, edges }

/-- The record at the front of bytes. -/
def Record.ofBytes (bytes : List UInt8) : Except Fault Record :=
  (Record.binaryReader.run bytes).map (·.1)

end ProgramGraph
