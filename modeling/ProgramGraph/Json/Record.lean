import ProgramGraph.Json.Shape
import ProgramGraph.Record

/-!
# Records as JSON

A record is written as an object with the name of its file, its nodes and its
edges.  Reading accepts every layout, fields in any order, and lists in place of
objects.
-/

namespace ProgramGraph

open Json

/-! ## Kinds -/

/-- A value as one of some names: a string, or an object with the name as its only
key and nothing as its value. -/
def Json.Value.variant {α : Type} (value : Value) (ofName? : String → Option α)
    (names : List String) : Except Mismatch α :=
  let named (name : String) : Except Mismatch α :=
    match ofName? name with
    | some kind => .ok kind
    | none => .error (.variant name names)
  match value with
  | .string name => named name
  | .object [(name, content)] => do
      let kind ← named name
      match content with
      | .null => return kind
      | content => throw (.type content.found "unit")
  | .object _ => .error (.value .map "map with a single key")
  | value => .error (.type value.found "string or map")

namespace NodeKind

/-- The names of the kinds of nodes. -/
def names : List String :=
  all.map name

/-- The kind of node that a value names. -/
def ofValue (value : Value) : Except Mismatch NodeKind :=
  value.variant ofName? names

end NodeKind

namespace EdgeKind

/-- The names of the kinds of edges. -/
def names : List String :=
  all.map name

/-- The kind of edge that a value names. -/
def ofValue (value : Value) : Except Mismatch EdgeKind :=
  value.variant ofName? names

end EdgeKind

/-! ## Writing -/

/-- A natural number as a value. -/
def Json.Value.natural (value : Nat) : Value :=
  .integer value

/-- A node as a value. -/
def Node.toValue (node : Node) : Value :=
  .object [
    ("id", .natural node.id),
    ("kind", .string node.kind.name),
    ("contents", .string node.contents),
    ("start_position", .natural node.startPosition),
    ("end_position", .natural node.endPosition),
    ("start_line", .natural node.startLine),
    ("end_line", .natural node.endLine)]

/-- An edge as a value. -/
def Edge.toValue (edge : Edge) : Value :=
  .object [
    ("source_id", .natural edge.source),
    ("destination_id", .natural edge.target),
    ("kind", .string edge.kind.name)]

/-- A record as a value. -/
def Record.toValue (record : Record) : Value :=
  .object [
    ("source_file", .string record.sourceFile),
    ("nodes", .list (record.nodes.map Node.toValue)),
    ("edges", .list (record.edges.map Edge.toValue))]

/-- A record as text. -/
def Record.toJson (record : Record) (layout : Layout) : String :=
  record.toValue.text layout

/-! ## Reading -/

/-- The fields of a node. -/
def Node.shape : Shape Node where
  name := "FeatureNode"
  fields := [
    ⟨"id", fun node => return { node with id := ← Reader.natural "u64" }⟩,
    ⟨"kind", fun node => return { node with
      kind := ← Reader.variant NodeKind.ofName? NodeKind.names }⟩,
    ⟨"contents", fun node => return { node with contents := ← Reader.text }⟩,
    ⟨"start_position", fun node => return { node with
      startPosition := ← Reader.natural "usize" }⟩,
    ⟨"end_position", fun node => return { node with
      endPosition := ← Reader.natural "usize" }⟩,
    ⟨"start_line", fun node => return { node with startLine := ← Reader.natural "usize" }⟩,
    ⟨"end_line", fun node => return { node with endLine := ← Reader.natural "usize" }⟩]

/-- The fields of an edge. -/
def Edge.shape : Shape Edge where
  name := "FeatureEdge"
  fields := [
    ⟨"source_id", fun edge => return { edge with source := ← Reader.natural "u64" }⟩,
    ⟨"destination_id", fun edge => return { edge with target := ← Reader.natural "u64" }⟩,
    ⟨"kind", fun edge => return { edge with
      kind := ← Reader.variant EdgeKind.ofName? EdgeKind.names }⟩]

/-- The fields of a record. -/
def Record.shape : Shape Record where
  name := "GraphRecord"
  fields := [
    ⟨"source_file", fun record => return { record with sourceFile := ← Reader.text }⟩,
    ⟨"nodes", fun record => return { record with
      nodes := ← Reader.list (Node.shape.read default) }⟩,
    ⟨"edges", fun record => return { record with
      edges := ← Reader.list (Edge.shape.read default) }⟩]

/-- Read a record and nothing after it. -/
def Record.reader : Reader Record := do
  let record ← Record.shape.read default
  if (← Reader.peek).isSome then throw .trailingCharacters
  return record

/-- The record that bytes of JSON hold. -/
def Record.ofJson (bytes : List UInt8) : Except Fault Record :=
  (Record.reader.run bytes).map (·.1)

end ProgramGraph
