import ProgramGraph.Binary.Record
import ProgramGraph.Bytes.Utf8
import ProgramGraph.Dot
import ProgramGraph.Json.Record

/-!
# Renderings

A graph is written as a drawing, as JSON or as bytes.  A rendering is one of these
formats with the choices that it leaves.  Text ends with a line end; bytes have
nothing after the record.
-/

namespace ProgramGraph

/-- A format of output. -/
inductive Format where
  /-- A drawing. -/
  | dot
  /-- A record as JSON. -/
  | json
  /-- A record as bytes. -/
  | bincode
  deriving DecidableEq, Repr, Inhabited

namespace Format

/-- All formats. -/
def all : List Format :=
  [dot, json, bincode]

/-- The name of a format. -/
def name : Format → String
  | dot => "dot"
  | json => "json"
  | bincode => "bincode"

/-- The names of all formats. -/
def names : List String :=
  all.map name

/-- The format with a name. -/
def ofName? (name : String) : Option Format :=
  all.find? (·.name == name)

/-- The extension of a file in a format. -/
def extension : Format → String
  | dot => "dot"
  | json => "json"
  | bincode => "bin"

end Format

/-- A format with the choices that it leaves. -/
structure Rendering where
  format : Format := .dot
  /-- Whether the labels of a drawing tell ids, kinds and stretches. -/
  isVerbose : Bool := false
  /-- Whether JSON is spread over lines. -/
  isPretty : Bool := false
  deriving DecidableEq, Repr, Inhabited

/-- What is written. -/
inductive Content where
  | text (text : String)
  | binary (bytes : List UInt8)
  deriving DecidableEq, Repr, Inhabited

/-- The bytes of what is written. -/
def Content.bytes : Content → List UInt8
  | .text shown => Utf8.bytesOf shown
  | .binary bytes => bytes

namespace Rendering

/-- How JSON is laid out. -/
def layout (rendering : Rendering) : Json.Layout :=
  if rendering.isPretty then .pretty else .compact

/-- A record as JSON with a line end. -/
def jsonText (rendering : Rendering) (record : Record) : String :=
  record.toJson rendering.layout ++ "\n"

/-- What is written for a graph.  Only a drawing can fail: it needs exactly one
root. -/
def content (rendering : Rendering) (graph : Graph) : Except GraphError Content :=
  match rendering.format with
  | .dot => (Dot.Document.ofGraph graph).map fun document =>
      .text (document.text rendering.isVerbose ++ "\n")
  | .json => .ok (.text (rendering.jsonText graph.toRecord))
  | .bincode => .ok (.binary graph.toRecord.toBytes)

end Rendering

end ProgramGraph
