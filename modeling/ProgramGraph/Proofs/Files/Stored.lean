import ProgramGraph.Proofs.Binary.Record
import ProgramGraph.Proofs.Extraction.Reachable
import ProgramGraph.Proofs.Files.Work
import ProgramGraph.Proofs.Graph.Reload
import ProgramGraph.Proofs.Json.Bounds
import ProgramGraph.Proofs.Json.Record
import ProgramGraph.Proofs.Path

/-!
# Stored graphs

A graph that was put into a record file can be loaded from it, and converting the file
writes what would be written for the graph itself.  It does not matter how the graph came
into the file: by an extraction, under the name that an output file gets, or by a
conversion, under any name that shows whether the file holds JSON.
-/

namespace ProgramGraph

open Attempt

variable {graph : Graph} {rendering : Rendering} {path : Path} {tree : FileTree}
  {names : List String}

/-! ## Files that hold a record -/

/-- The numbers of a graph and the lengths of its texts and lists fit 64 bits, and its ids
leave room for a later one. -/
structure Graph.Storable (graph : Graph) : Prop where
  bounded : ∀ node ∈ graph.nodes, node.id < idBound
  fits : graph.toRecord.FitsBytes

instance (graph : Graph) : Decidable graph.Storable :=
  decidable_of_iff ((∀ node ∈ graph.nodes, node.id < Graph.idBound) ∧ graph.toRecord.FitsBytes)
    ⟨fun ⟨bounded, fits⟩ => ⟨bounded, fits⟩, fun storable => ⟨storable.bounded, storable.fits⟩⟩

theorem Record.FitsBytes.fitsWords {record : Record} (fits : record.FitsBytes) :
    record.FitsWords where
  nodes node member := (fits.nodes node member).toFitsWords
  edges := fits.edges

/-- Records are written, and the extension of the path tells whether as JSON. -/
structure Rendering.StoresAt (rendering : Rendering) (path : Path) : Prop where
  isRecord : rendering.format ≠ .dot
  extension : path.extension? = some "json" ↔ rendering.format = .json

/-- An output file has the extension of its format. -/
theorem Rendering.storesAt_ofOutput (isRecord : rendering.format ≠ .dot) (input directory : Path) :
    rendering.StoresAt (rendering.outputOf directory input) where
  isRecord := isRecord
  extension := by
    rw [Rendering.outputOf,
      Path.extension?_ofOutput input directory rendering.format.isExtension]
    cases rendering.format <;> decide

theorem Rendering.StoresAt.recordOf_content (stores : rendering.StoresAt path)
    (fits : graph.toRecord.FitsBytes) :
    ∃ content, rendering.content graph = .ok content ∧
      recordOf path content.bytes = .ok graph.toRecord := by
  have extension := stores.extension
  cases format : rendering.format with
  | dot => exact absurd format stores.isRecord
  | json =>
      refine ⟨.text (rendering.jsonText graph.toRecord), by rw [content, format], ?_⟩
      rw [recordOf, if_pos (extension.mpr format)]
      have read := Record.ofJson_bytesOf fits.fitsWords rendering.layout "\n" (by simp [Json.Blank])
      exact congrArg _ read
  | bincode =>
      rw [format] at extension
      refine ⟨.binary graph.toRecord.toBytes, by rw [content, format], ?_⟩
      rw [recordOf, if_neg (extension.not.mpr (by decide))]
      have read := Record.ofBytes_eq_ok_iff.mpr ⟨fits, List.prefix_rfl⟩
      exact congrArg _ read

/-! ## Stored graphs -/

/-- A file stands for a graph: the record of the graph is loaded from it, and converting it
does what saving the graph itself does. -/
structure StoredIn (tree : FileTree) (path : Path) (graph : Graph) : Prop where
  loads : on (loadRecord path) tree = (.ok graph.toRecord, tree)
  converts : ∃ copy, Graph.ofRecord graph.toRecord = .ok copy ∧ ∀ rendering target,
    on (convertFile rendering path target) tree =
      on (do save rendering graph target; return copy) tree
  /-- A converted file has the bytes that are written for the graph itself. -/
  exports : ∀ rendering target names content, tree.IsPlace target names →
    rendering.content graph = .ok content →
      ∃ copy after, on (convertFile rendering path target) tree = (.ok copy, after) ∧
        after.read target = .ok content.bytes

/-- A graph that is saved as a record is stored. -/
theorem storedIn_save (invariant : graph.Invariant) (storable : graph.Storable)
    (stores : rendering.StoresAt path) (place : tree.IsPlace path names) :
    ∃ after, on (save rendering graph path) tree = (.ok (), after) ∧
      StoredIn after path graph := by
  obtain ⟨content, written, decoded⟩ := stores.recordOf_content storable.fits
  have loads : on (loadRecord path) (tree.insert names (.file content.bytes)) =
      (.ok graph.toRecord, tree.insert names (.file content.bytes)) :=
    on_loadRecord_eq_ok_iff.mpr ⟨_, place.read_insert, decoded⟩
  obtain ⟨copy, accepted, same⟩ := invariant.ofRecord_toRecord storable.bounded
  -- The copy is another graph, but nothing that is written tells it from the first one.
  have converts : ∀ rendering target,
      on (convertFile rendering path target) (tree.insert names (.file content.bytes)) =
        on (do save rendering graph target; return copy)
          (tree.insert names (.file content.bytes)) := by
    intro rendering target
    rw [on_convertFile rendering target loads accepted, save_congr (same.content rendering)]
  refine ⟨_, on_save_of_content place written, loads, ⟨copy, accepted, converts⟩, ?_⟩
  intro rendering target found shown targetPlace content
  refine ⟨copy, _, ?_, targetPlace.read_insert⟩
  rw [converts, on_bind, on_save_of_content targetPlace content]
  rfl

/-! ## Routes into a file -/

/-- Whatever is decoded from a file fits if the file does. -/
theorem fitsBytes_of_recordOf {bytes : List UInt8} {record : Record}
    (sized : bytes.length < wordBound) (decoded : recordOf path bytes = .ok record) :
    record.FitsBytes := by
  rw [recordOf] at decoded
  split at decoded
  · exact Record.fitsBytes_of_ofJson sized (mapError_eq_ok_iff.mp decoded)
  · exact (Record.ofBytes_eq_ok_iff.mp (mapError_eq_ok_iff.mp decoded)).1

/-- A loaded graph is storable if its record fits. -/
theorem Graph.storable_of_ofRecord {record : Record} (accepted : Graph.ofRecord record = .ok graph)
    (fits : record.FitsBytes) : graph.Storable := by
  obtain ⟨sourceFile, nodes, edges⟩ := Graph.toRecord_ofRecord accepted
  refine ⟨Graph.id_lt_idBound_of_ofRecord accepted, ?_, ?_, ?_, ?_, ?_⟩
  · rw [Graph.toRecord, sourceFile]
    exact fits.sourceFile
  · rw [Graph.toRecord, nodes.length_eq]
    exact fits.nodeCount
  · rw [Graph.toRecord, edges]
    exact fits.edgeCount
  · intro node member
    exact fits.nodes node (nodes.mem_iff.mp member)
  · rw [Graph.toRecord, edges]
    exact fits.edges

/-- The graph of every source text is stored in the file into which its extraction puts it,
whatever the names of the source file and of the directory are, and the graph of every
record file in the file into which a conversion puts it. -/
theorem storedIn_by_every_route :
    (∀ (tree : FileTree) (input directory : Path) (names : List String) (bytes : List UInt8)
        (source : String) (prune : Bool) (extraction : Extraction) (rendering : Rendering),
      rendering.format ≠ .dot → tree.read input = .ok bytes → Utf8.textOf bytes = .ok source →
      Extraction.ofSource prune input.text source = .ok extraction →
      extraction.graph.Storable →
      tree.IsPlace (rendering.outputOf directory input) names →
        rendering.StoresAt (rendering.outputOf directory input) ∧
          ∃ after, on (extractFile rendering prune input directory) tree =
              (.ok (rendering.outputOf directory input), after) ∧
            StoredIn after (rendering.outputOf directory input) extraction.graph) ∧
    (∀ (tree : FileTree) (input target : Path) (names : List String) (bytes : List UInt8)
        (record : Record) (graph : Graph) (rendering : Rendering),
      rendering.StoresAt target → tree.read input = .ok bytes → bytes.length < wordBound →
      on (loadRecord input) tree = (.ok record, tree) → Graph.ofRecord record = .ok graph →
      tree.IsPlace target names →
        ∃ after, on (convertFile rendering input target) tree = (.ok graph, after) ∧
          StoredIn after target graph) := by
  constructor
  · intro tree input directory names bytes source prune extraction rendering isRecord read
      decoded accepted storable place
    have stores := Rendering.storesAt_ofOutput isRecord input directory
    have invariant := (Extraction.reachable_of_run accepted).invariant
    obtain ⟨after, saved, stored⟩ := storedIn_save invariant storable stores place
    refine ⟨stores, after, ?_, stored⟩
    rw [on_extractFile rendering prune input directory read decoded accepted, on_bind, saved]
    rfl
  · intro tree input target names bytes record graph rendering stores read sized loads accepted
      place
    obtain ⟨found, foundRead, decoded⟩ := on_loadRecord_eq_ok_iff.mp loads
    obtain rfl : found = bytes := by
      rw [foundRead] at read
      exact Except.ok.inj read
    have storable := Graph.storable_of_ofRecord accepted (fitsBytes_of_recordOf sized decoded)
    obtain ⟨after, saved, stored⟩ := storedIn_save (.ofRecord accepted) storable stores place
    refine ⟨after, ?_, stored⟩
    rw [on_convertFile rendering target loads accepted, on_bind, saved]
    rfl

/-- A source file without a stem before its extension, and a record file. -/
def FileTree.sample : FileTree where
  entries := [(["in"], .directory), (["in", ".json"], .file (Utf8.bytesOf "struct A;")),
    (["graph"], .file Graph.sample.toRecord.toBytes)]

theorem exists_storable_extraction :
    ∃ extraction, Extraction.ofSource false "in/.json" "struct A;" = .ok extraction ∧
      extraction.graph.Storable := by
  have accepted : (Extraction.ofSource false "in/.json" "struct A;").toOption.any fun extraction =>
      decide extraction.graph.Storable := by
    decide +kernel
  rcases exists_of_any accepted with ⟨extraction, accepted, storable⟩
  exact ⟨extraction, accepted, of_decide_eq_true storable⟩

/-- A hidden name is no extension: bytes go into a file that is read as bytes. -/
theorem storedIn_sample :
    (∃ extraction after, Extraction.ofSource false "in/.json" "struct A;" = .ok extraction ∧
      on (extractFile { format := .bincode } false ⟨"in/.json"⟩ ⟨"in"⟩) FileTree.sample =
        (.ok ⟨"in/.json.bin"⟩, after) ∧
      StoredIn after ⟨"in/.json.bin"⟩ extraction.graph) ∧
    (∃ graph after, Graph.ofRecord Graph.sample.toRecord = .ok graph ∧
      on (convertFile { format := .json } ⟨"graph"⟩ ⟨"copy.json"⟩) FileTree.sample =
        (.ok graph, after) ∧
      StoredIn after ⟨"copy.json"⟩ graph) := by
  constructor
  · obtain ⟨extraction, accepted, storable⟩ := exists_storable_extraction
    obtain ⟨-, after, done, stored⟩ := storedIn_by_every_route.1 FileTree.sample ⟨"in/.json"⟩
      ⟨"in"⟩ ["in", ".json.bin"] (Utf8.bytesOf "struct A;") "struct A;" false extraction
      { format := .bincode } (by decide) (by decide +kernel) (Utf8.textOf_bytesOf _) accepted
      storable ⟨by decide +kernel, by decide +kernel, by decide +kernel⟩
    have named : Rendering.outputOf { format := .bincode } ⟨"in"⟩ ⟨"in/.json"⟩ =
        ⟨"in/.json.bin"⟩ := by
      decide +kernel
    rw [named] at done stored
    exact ⟨extraction, after, accepted, done, stored⟩
  · have loads : on (loadRecord ⟨"graph"⟩) FileTree.sample =
        (.ok Graph.sample.toRecord, FileTree.sample) :=
      on_loadRecord_eq_ok_iff.mpr
        ⟨Graph.sample.toRecord.toBytes, by decide +kernel, by decide +kernel⟩
    obtain ⟨graph, accepted, -⟩ :=
      Graph.reachable_sample.invariant.ofRecord_toRecord (by decide)
    obtain ⟨after, done, stored⟩ := storedIn_by_every_route.2 FileTree.sample ⟨"graph"⟩
      ⟨"copy.json"⟩ ["copy.json"] Graph.sample.toRecord.toBytes Graph.sample.toRecord graph
      { format := .json } ⟨by decide, by decide +kernel⟩ (by decide +kernel) (by decide +kernel)
      loads accepted ⟨by decide +kernel, by decide +kernel, by decide +kernel⟩
    exact ⟨graph, after, accepted, done, stored⟩

end ProgramGraph
