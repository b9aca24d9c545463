import Mathlib.Data.List.Nodup
import ProgramGraph.Binary.Record
import ProgramGraph.Proofs.Binary.Reader

/-!
# Records as bytes are exact

Every record whose numbers and lengths fit 64 bits has one written form.  Bytes are
read as this record just when they begin with that form, and a form that is cut short
anywhere is refused for want of bytes and for no other cause.
-/

namespace ProgramGraph

open Binary

/-! ## Kinds -/

/-- Where nothing is listed twice, a place holds an element just when it is the place
of this element. -/
private theorem getElem?_eq_some_iff_idxOf {α : Type} [DecidableEq α] {all : List α}
    (nodup : all.Nodup) (complete : ∀ element, element ∈ all) {place : Nat} {element : α} :
    all[place]? = some element ↔ place = all.idxOf element := by
  constructor
  · intro found
    obtain ⟨inside, rfl⟩ := List.getElem?_eq_some_iff.mp found
    exact (nodup.idxOf_getElem place inside).symm
  · rintro rfl
    exact List.getElem?_idxOf (complete element)

theorem NodeKind.ofIndex?_eq_some_iff {place : Nat} {kind : NodeKind} :
    ofIndex? place = some kind ↔ place = kind.index :=
  getElem?_eq_some_iff_idxOf (by decide) mem_all

theorem EdgeKind.ofIndex?_eq_some_iff {place : Nat} {kind : EdgeKind} :
    ofIndex? place = some kind ↔ place = kind.index :=
  getElem?_eq_some_iff_idxOf (by decide) mem_all

theorem NodeKind.index_lt (kind : NodeKind) : kind.index < Nat.pow 256 4 := by
  cases kind <;> decide

theorem EdgeKind.index_lt (kind : EdgeKind) : kind.index < Nat.pow 256 4 := by
  cases kind <;> decide

namespace Binary

section Kinds

variable {α : Type} {ofIndex? : Nat → Option α} {index : α → Nat}

theorem exact_readKind (count : Nat)
    (placed : ∀ {place kind}, ofIndex? place = some kind ↔ place = index kind)
    (small : ∀ kind, index kind < Nat.pow 256 4) :
    Exact (readKind ofIndex? count) (fun kind => writeNumber 4 (index kind)) fun _ => True where
  run_eq_ok_iff {bytes kind rest} := by
    simp only [readKind, run_bind_eq_ok_iff, (exact_readNumber 4).run_eq_ok_iff, true_and]
    constructor
    · rintro ⟨place, _, ⟨-, rfl⟩, done⟩
      cases found : ofIndex? place with
      | none =>
          rw [found] at done
          cases done
      | some kind =>
          rw [found] at done
          cases done
          rw [placed.mp found]
    · rintro rfl
      refine ⟨_, _, ⟨small kind, rfl⟩, ?_⟩
      rw [placed.mpr rfl]
      rfl

theorem steady_readKind (ofIndex? : Nat → Option α) (count : Nat) :
    Steady (readKind ofIndex? count) := by
  refine (steady_readNumber 4).bind fun place => ?_
  cases ofIndex? place with
  | none => exact .throw _
  | some kind => exact .pure kind

end Kinds

end Binary

/-! ## Nodes and edges -/

/-- The numbers of a node and the length of its text fit 64 bits. -/
structure Node.FitsBytes (node : Node) : Prop extends node.FitsWords where
  contents : (Utf8.bytesOf node.contents).length < wordBound

instance (node : Node) : Decidable node.FitsBytes :=
  decidable_of_iff (node.FitsWords ∧ (Utf8.bytesOf node.contents).length < wordBound)
    ⟨fun ⟨words, contents⟩ => ⟨words, contents⟩, fun fits => ⟨fits.toFitsWords, fits.contents⟩⟩

theorem Node.exact_reader : Exact Node.reader Node.toBytes Node.FitsBytes where
  run_eq_ok_iff {bytes node rest} := by
    simp only [Node.reader, run_bind_eq_ok_iff, run_pure_eq_ok_iff, exact_readLong.run_eq_ok_iff,
      exact_readText.run_eq_ok_iff,
      (exact_readKind _ NodeKind.ofIndex?_eq_some_iff NodeKind.index_lt).run_eq_ok_iff]
    constructor
    · rintro ⟨id, _, ⟨idFits, rfl⟩, kind, _, ⟨-, rfl⟩, contents, _, ⟨contentsFit, rfl⟩,
        startPosition, _, ⟨startFits, rfl⟩, endPosition, _, ⟨endFits, rfl⟩,
        startLine, _, ⟨startLineFits, rfl⟩, endLine, _, ⟨endLineFits, rfl⟩, rfl, rfl⟩
      refine ⟨⟨⟨idFits, startFits, endFits, startLineFits, endLineFits⟩, contentsFit⟩, ?_⟩
      simp only [Node.toBytes, List.append_assoc]
    · rintro ⟨fits, rfl⟩
      simp only [Node.toBytes, List.append_assoc]
      exact ⟨_, _, ⟨fits.id, rfl⟩, _, _, ⟨trivial, rfl⟩, _, _, ⟨fits.contents, rfl⟩,
        _, _, ⟨fits.startPosition, rfl⟩, _, _, ⟨fits.endPosition, rfl⟩,
        _, _, ⟨fits.startLine, rfl⟩, _, _, ⟨fits.endLine, rfl⟩, rfl, rfl⟩

theorem Node.steady_reader : Steady Node.reader :=
  steady_readLong.bind fun _ => (steady_readKind _ _).bind fun _ => steady_readText.bind fun _ =>
    steady_readLong.bind fun _ => steady_readLong.bind fun _ => steady_readLong.bind fun _ =>
      steady_readLong.bind fun _ => .pure _

theorem Edge.exact_reader : Exact Edge.reader Edge.toBytes Edge.FitsWords where
  run_eq_ok_iff {bytes edge rest} := by
    simp only [Edge.reader, run_bind_eq_ok_iff, run_pure_eq_ok_iff, exact_readLong.run_eq_ok_iff,
      (exact_readKind _ EdgeKind.ofIndex?_eq_some_iff EdgeKind.index_lt).run_eq_ok_iff]
    constructor
    · rintro ⟨source, _, ⟨sourceFits, rfl⟩, target, _, ⟨targetFits, rfl⟩, kind, _, ⟨-, rfl⟩,
        rfl, rfl⟩
      refine ⟨⟨sourceFits, targetFits⟩, ?_⟩
      simp only [Edge.toBytes, List.append_assoc]
    · rintro ⟨fits, rfl⟩
      simp only [Edge.toBytes, List.append_assoc]
      exact ⟨_, _, ⟨fits.source, rfl⟩, _, _, ⟨fits.target, rfl⟩, _, _, ⟨trivial, rfl⟩, rfl, rfl⟩

theorem Edge.steady_reader : Steady Edge.reader :=
  steady_readLong.bind fun _ => steady_readLong.bind fun _ => (steady_readKind _ _).bind fun _ =>
    .pure _

/-! ## Records -/

namespace Record

/-- The numbers of a record and the lengths of its texts and lists fit 64 bits. -/
structure FitsBytes (record : Record) : Prop where
  sourceFile : (Utf8.bytesOf record.sourceFile).length < wordBound
  nodeCount : record.nodes.length < wordBound
  edgeCount : record.edges.length < wordBound
  nodes : ∀ node ∈ record.nodes, node.FitsBytes
  edges : ∀ edge ∈ record.edges, edge.FitsWords

instance (record : Record) : Decidable record.FitsBytes :=
  decidable_of_iff
    ((Utf8.bytesOf record.sourceFile).length < wordBound ∧ record.nodes.length < wordBound ∧
      record.edges.length < wordBound ∧ (∀ node ∈ record.nodes, node.FitsBytes) ∧
      ∀ edge ∈ record.edges, edge.FitsWords)
    ⟨fun ⟨sourceFile, nodeCount, edgeCount, nodes, edges⟩ =>
      ⟨sourceFile, nodeCount, edgeCount, nodes, edges⟩,
      fun fits => ⟨fits.sourceFile, fits.nodeCount, fits.edgeCount, fits.nodes, fits.edges⟩⟩

theorem exact_binaryReader : Exact binaryReader toBytes FitsBytes where
  run_eq_ok_iff {bytes record rest} := by
    simp only [binaryReader, run_bind_eq_ok_iff, run_pure_eq_ok_iff,
      exact_readText.run_eq_ok_iff, (exact_readList Node.exact_reader).run_eq_ok_iff,
      (exact_readList Edge.exact_reader).run_eq_ok_iff]
    constructor
    · rintro ⟨sourceFile, _, ⟨sourceFits, rfl⟩, nodes, _, ⟨⟨nodeCount, nodesFit⟩, rfl⟩,
        edges, _, ⟨⟨edgeCount, edgesFit⟩, rfl⟩, rfl, rfl⟩
      refine ⟨⟨sourceFits, nodeCount, edgeCount, nodesFit, edgesFit⟩, ?_⟩
      simp only [toBytes, List.append_assoc]
    · rintro ⟨fits, rfl⟩
      simp only [toBytes, List.append_assoc]
      exact ⟨_, _, ⟨fits.sourceFile, rfl⟩, _, _, ⟨⟨fits.nodeCount, fits.nodes⟩, rfl⟩,
        _, _, ⟨⟨fits.edgeCount, fits.edges⟩, rfl⟩, rfl, rfl⟩

theorem steady_binaryReader : Steady binaryReader :=
  steady_readText.bind fun _ => (steady_readList Node.steady_reader).bind fun _ =>
    (steady_readList Edge.steady_reader).bind fun _ => .pure _

theorem ofBytes_eq_ok_iff {bytes : List UInt8} {record : Record} :
    ofBytes bytes = .ok record ↔ record.FitsBytes ∧ record.toBytes <+: bytes := by
  have reads : ofBytes bytes = .ok record ↔
      ∃ rest, binaryReader.run bytes = .ok (record, rest) := by
    rw [ofBytes]
    cases binaryReader.run bytes with
    | error cause => simp [Except.map]
    | ok answer =>
        obtain ⟨found, rest⟩ := answer
        simp [Except.map]
  rw [reads]
  simp only [exact_binaryReader.run_eq_ok_iff, exists_and_left]
  exact and_congr_right fun _ => exists_congr fun _ => eq_comm

/-- The written form of a record followed by anything is read as this record, whatever
is read as a record begins with its written form, and a written form that is cut short
has too few bytes. -/
theorem ofBytes_exact (record : Record) :
    (record.FitsBytes → ∀ after, ofBytes (record.toBytes ++ after) = .ok record) ∧
      (∀ bytes, ofBytes bytes = .ok record → record.toBytes <+: bytes) ∧
      (record.FitsBytes → ∀ front, front <+: record.toBytes → front ≠ record.toBytes →
        ofBytes front = .error .ended) := by
  refine ⟨?_, ?_, ?_⟩
  · intro fits after
    exact ofBytes_eq_ok_iff.mpr ⟨fits, List.prefix_append _ _⟩
  · intro bytes read
    exact (ofBytes_eq_ok_iff.mp read).2
  · intro fits front cut short
    rw [ofBytes, exact_binaryReader.run_of_prefix steady_binaryReader fits cut short]
    rfl

/-- A cut through the last character of a text is no fault of the text. -/
theorem ofBytes_sample :
    sample.FitsBytes ∧ ofBytes (sample.toBytes ++ [0xFF]) = .ok sample ∧
      sample.toBytes.take 48 ≠ sample.toBytes ∧
      (sample.toBytes.take 48).getLast? = some 0x84 ∧
      ofBytes (sample.toBytes.take 48) = .error .ended :=
  ⟨by decide, (ofBytes_exact sample).1 (by decide) _, by decide, by decide,
    (ofBytes_exact sample).2.2 (by decide) _ (List.take_prefix _ _) (by decide)⟩

end Record

end ProgramGraph
