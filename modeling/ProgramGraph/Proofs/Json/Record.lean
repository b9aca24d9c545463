import ProgramGraph.Proofs.Graph.Reachable
import ProgramGraph.Proofs.Json.Shape
import ProgramGraph.Rendering

/-!
# Records come back from JSON

A record whose numbers fit 64 bits is read back from its text, in either layout and
with blanks after it.  So nothing is lost in writing, and two records never share a
text.
-/

namespace ProgramGraph

open Json

/-! ## Nodes, edges and records -/

theorem Node.reads_toValue {node : Node} (fits : node.FitsWords) :
    Reads (Node.shape.read default) node.toValue node :=
  Shape.reads_read (by decide) <|
    .cons ((reads_natural "u64" fits.id).map _) <|
    .cons ((reads_variant (NodeKind.ofName?_name node.kind)).map _) <|
    .cons ((reads_stringOr "a string" node.contents).map _) <|
    .cons ((reads_natural "usize" fits.startPosition).map _) <|
    .cons ((reads_natural "usize" fits.endPosition).map _) <|
    .cons ((reads_natural "usize" fits.startLine).map _) <|
    .cons ((reads_natural "usize" fits.endLine).map _) .nil

theorem Edge.reads_toValue {edge : Edge} (fits : edge.FitsWords) :
    Reads (Edge.shape.read default) edge.toValue edge :=
  Shape.reads_read (by decide) <|
    .cons ((reads_natural "u64" fits.source).map _) <|
    .cons ((reads_natural "u64" fits.target).map _) <|
    .cons ((reads_variant (EdgeKind.ofName?_name edge.kind)).map _) .nil

namespace Record

theorem reads_toValue {record : Record} (fits : record.FitsWords) :
    Reads (Record.shape.read default) record.toValue record :=
  Shape.reads_read (by decide) <|
    .cons ((reads_stringOr "a string" record.sourceFile).map _) <|
    .cons ((reads_list (fun node known => Node.reads_toValue (fits.nodes node known))
      fun _ => ⟨_, rfl⟩).map _) <|
    .cons ((reads_list (fun edge known => Edge.reads_toValue (fits.edges edge known))
      fun _ => ⟨_, rfl⟩).map _) .nil

/-- A record is read back from its text, whatever blanks come after it. -/
theorem ofJson_bytesOf {record : Record} (fits : record.FitsWords) (layout : Layout)
    (blanks : String) (blank : Blank blanks.toList) :
    ofJson (Utf8.bytesOf (record.toJson layout ++ blanks)) = .ok record := by
  have text : Utf8.bytesOf (record.toJson layout ++ blanks) =
      Utf8.encode (write layout 0 record.toValue) ++ Utf8.encode blanks.toList := by
    rw [Utf8.bytesOf, toJson, Value.text, String.toList_append, String.toList_ofList,
      Utf8.encode_append]
  have ends : Ends (Utf8.encode blanks.toList) := by
    simpa using ends_blank blank ends_nil
  have done : (Utf8.encode blanks.toList ++ []).dropWhile isBlank = [] :=
    dropWhile_blank blank
  rw [List.append_nil] at done
  rw [ofJson, text, reader,
    Reader.run_bind_of_ok ((reads_toValue fits).run layout 0 ends)]
  simp [Reader.peek, done, Except.map]

/-- A record whose numbers fit is read back from its text in either layout, what is
written for a graph is read as the record of the graph, and records that differ are
written as texts that differ. -/
theorem json_faithful :
    (∀ (record : Record) (layout : Layout), record.FitsWords →
      ofJson (Utf8.bytesOf (record.toJson layout)) = .ok record) ∧
    (∀ (graph : Graph) (rendering : Rendering), rendering.format = .json →
      graph.toRecord.FitsWords →
        ∃ text, rendering.content graph = .ok (.text text) ∧
          text = graph.toRecord.toJson rendering.layout ++ "\n" ∧
          ofJson (Utf8.bytesOf text) = .ok graph.toRecord) ∧
    (∀ (first second : Record) (layout : Layout), first.FitsWords → second.FitsWords →
      first ≠ second → first.toJson layout ≠ second.toJson layout) := by
  have roundTrip (record : Record) (layout : Layout) (fits : record.FitsWords) :
      ofJson (Utf8.bytesOf (record.toJson layout)) = .ok record := by
    simpa using ofJson_bytesOf fits layout "" blank_nil
  refine ⟨roundTrip, ?_, ?_⟩
  · intro graph rendering isJson fits
    refine ⟨rendering.jsonText graph.toRecord, by rw [Rendering.content, isJson], rfl, ?_⟩
    exact ofJson_bytesOf fits rendering.layout "\n" (by simp [Blank])
  · intro first second layout firstFits secondFits differ sameText
    have read := roundTrip first layout firstFits
    rw [sameText, roundTrip second layout secondFits] at read
    exact differ (Except.ok.inj read).symm

/-- The greatest number and every character that is escaped come back; what is written
for a graph is read. -/
theorem json_sample :
    sample.FitsWords ∧ ofJson (Utf8.bytesOf (sample.toJson .pretty)) = .ok sample ∧
      Graph.sample.toRecord.FitsWords ∧
      (∃ text, Rendering.content ⟨.json, false, true⟩ Graph.sample = .ok (.text text) ∧
        text = Graph.sample.toRecord.toJson .pretty ++ "\n" ∧
        ofJson (Utf8.bytesOf text) = .ok Graph.sample.toRecord) ∧
      sample.toJson .compact ≠ Graph.sample.toRecord.toJson .compact :=
  ⟨by decide, json_faithful.1 sample .pretty (by decide), by decide,
    json_faithful.2.1 Graph.sample ⟨.json, false, true⟩ rfl (by decide),
    json_faithful.2.2 sample Graph.sample.toRecord .compact (by decide) (by decide) (by decide)⟩

end Record

end ProgramGraph
