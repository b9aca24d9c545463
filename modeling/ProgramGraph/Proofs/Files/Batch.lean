import ProgramGraph.CommandLine.Run
import ProgramGraph.Proofs.Files.Work

/-!
# Many source files at once

The graphs of several source files are written into one directory, each under the stem of
its file.  In which order the files are worked on is left open.  Where files share a stem
the last one of them stays, whatever the order, so no graph is lost just when files that
share a stem have the same graph.
-/

namespace ProgramGraph

open Attempt

variable {rendering : Rendering} {prune : Bool} {tree : FileTree} {directory : Path}
  {inputs order : List Path} {input : Path} {names : List String} {bytes : List UInt8}

/-! ## One source file -/

/-- The bytes that are written for the graph of a source file, if the file can be read, its
text has a graph and the graph can be shown. -/
def exportOf (rendering : Rendering) (prune : Bool) (tree : FileTree) (input : Path) :
    Option (List UInt8) := do
  let bytes ← (tree.read input).toOption
  let source ← (Utf8.textOf bytes).toOption
  let extraction ← (Extraction.ofSource prune input.text source).toOption
  let content ← (rendering.content extraction.graph).toOption
  return content.bytes

private theorem toOption_eq_some_iff {ε α : Type} {result : Except ε α} {answer : α} :
    result.toOption = some answer ↔ result = .ok answer := by
  cases result <;> simp [Except.toOption]

theorem exportOf_eq_some_iff :
    exportOf rendering prune tree input = some bytes ↔
      ∃ stored source extraction content, tree.read input = .ok stored ∧
        Utf8.textOf stored = .ok source ∧
        Extraction.ofSource prune input.text source = .ok extraction ∧
        rendering.content extraction.graph = .ok content ∧ content.bytes = bytes := by
  simp [exportOf, Option.bind_eq_some_iff, toOption_eq_some_iff]

/-- A source file whose graph can be exported puts the export into its output file. -/
theorem on_extractFile_of_export (exported : exportOf rendering prune tree input = some bytes)
    (place : tree.IsPlace (rendering.outputOf directory input) names) :
    on (extractFile rendering prune input directory) tree =
      (.ok (rendering.outputOf directory input), tree.insert names (.file bytes)) := by
  obtain ⟨stored, source, extraction, content, read, decoded, accepted, shown, rfl⟩ :=
    exportOf_eq_some_iff.mp exported
  rw [on_extractFile rendering prune input directory read decoded accepted, on_bind,
    on_save_of_content place shown]
  rfl

/-- A file that is written elsewhere does not change what is exported. -/
theorem exportOf_insert {contents : List UInt8}
    (exported : exportOf rendering prune tree input = some bytes)
    (noDirectory : tree.entry? names ≠ some .directory)
    (elsewhere : tree.locate input ≠ .ok names) :
    exportOf rendering prune (tree.insert names (.file contents)) input = some bytes := by
  obtain ⟨stored, source, extraction, content, read, rest⟩ := exportOf_eq_some_iff.mp exported
  refine exportOf_eq_some_iff.mpr ⟨stored, source, extraction, content, ?_, rest⟩
  rw [FileTree.read_insert_eq_ok_iff noDirectory, if_neg elsewhere]
  exact read

/-! ## Source files in any order -/

/-- Source files whose graphs can all be exported and written, where no output file is a
source file. -/
structure Batch (rendering : Rendering) (prune : Bool) (tree : FileTree) (directory : Path)
    (inputs : List Path) : Prop where
  exports : ∀ input ∈ inputs, ∃ bytes, exportOf rendering prune tree input = some bytes
  places : ∀ input ∈ inputs, ∃ names, tree.IsPlace (rendering.outputOf directory input) names
  apart : ∀ input ∈ inputs, ∀ other ∈ inputs,
    tree.locate input ≠ tree.locate (rendering.outputOf directory other)

namespace Batch

/-- Places of output files are the same just when the stems are. -/
theorem names_eq_iff {other : Path} {found : List String}
    (place : tree.IsPlace (rendering.outputOf directory input) names)
    (otherPlace : tree.IsPlace (rendering.outputOf directory other) found) :
    names = found ↔ input.outputStem = other.outputStem := by
  rw [place.names_ofOutput rendering.format.isExtension,
    otherPlace.names_ofOutput rendering.format.isExtension, List.append_right_inj,
    List.singleton_inj, Path.outputName_inj]

theorem locate_ne {worked : Path} (batch : Batch rendering prune tree directory inputs)
    (listed : input ∈ inputs) (member : worked ∈ inputs)
    (place : tree.IsPlace (rendering.outputOf directory worked) names) :
    tree.locate input ≠ .ok names :=
  place.located ▸ batch.apart input listed worked member

/-- Work on one of the files leaves the others what they are. -/
theorem insert {worked : Path} (batch : Batch rendering prune tree directory inputs)
    (member : worked ∈ inputs) (place : tree.IsPlace (rendering.outputOf directory worked) names)
    (bytes : List UInt8) :
    Batch rendering prune (tree.insert names (.file bytes)) directory inputs where
  exports input listed := by
    obtain ⟨exported, same⟩ := batch.exports input listed
    exact ⟨exported,
      exportOf_insert same place.noDirectory (batch.locate_ne listed member place)⟩
  places input listed := by
    obtain ⟨found, other⟩ := batch.places input listed
    exact ⟨found, (FileTree.isPlace_insert place.noDirectory).mpr other⟩
  apart input listed other otherListed := by
    obtain ⟨found, otherPlace⟩ := batch.places other otherListed
    rw [(FileTree.locate_insert place.noDirectory).mpr otherPlace.located]
    exact fun located => batch.locate_ne listed otherListed otherPlace
      ((FileTree.locate_insert place.noDirectory).mp located)

end Batch

theorem run_extractFiles_cons (rendering : Rendering) (prune : Bool) (input : Path)
    (rest : List Path) (directory : Path) (tree : FileTree) :
    (extractFiles (m := StateM FileTree) rendering prune (input :: rest) directory).run tree =
      let worked := on (extractFile rendering prune input directory) tree
      let others :=
        (extractFiles (m := StateM FileTree) rendering prune rest directory).run worked.2
      (worked.1 :: others.1, others.2) := by
  rw [extractFiles, List.mapM_cons]
  rfl

namespace Batch

/-- In whichever order files are worked on, the output file of a stem holds the export of the
last one that has this stem. -/
theorem run_extractFiles (batch : Batch rendering prune tree directory inputs)
    (members : ∀ input ∈ order, input ∈ inputs) :
    ∃ after, (extractFiles (m := StateM FileTree) rendering prune order directory).run tree =
        (order.map fun input => .ok (rendering.outputOf directory input), after) ∧
      ∀ input ∈ inputs, ∀ bytes,
        after.read (rendering.outputOf directory input) = .ok bytes ↔
          match order.reverse.find? (·.outputStem == input.outputStem) with
          | some last => exportOf rendering prune tree last = some bytes
          | none => tree.read (rendering.outputOf directory input) = .ok bytes := by
  induction order generalizing tree with
  | nil => exact ⟨tree, rfl, fun _ _ _ => Iff.rfl⟩
  | cons first rest ih =>
      obtain ⟨member, members⟩ := List.forall_mem_cons.mp members
      obtain ⟨exported, same⟩ := batch.exports first member
      obtain ⟨names, place⟩ := batch.places first member
      obtain ⟨after, done, holds⟩ := ih (batch.insert member place exported) members
      refine ⟨after, ?_, fun input listed bytes => ?_⟩
      · rw [run_extractFiles_cons, on_extractFile_of_export same place]
        dsimp only
        rw [done]
        rfl
      · rw [holds input listed bytes, List.reverse_cons, List.find?_append]
        cases found : rest.reverse.find? (·.outputStem == input.outputStem) with
        | some last =>
            have known := members last (List.mem_reverse.mp (List.mem_of_find?_eq_some found))
            obtain ⟨own, ownSame⟩ := batch.exports last known
            have kept : exportOf rendering prune (tree.insert names (.file exported)) last =
                some own :=
              exportOf_insert ownSame place.noDirectory
                (batch.locate_ne known member place)
            simp [ownSame, kept]
        | none =>
            obtain ⟨others, otherPlace⟩ := batch.places input listed
            have located : tree.locate (rendering.outputOf directory input) = .ok names ↔
                first.outputStem = input.outputStem := by
              rw [otherPlace.located, Except.ok.injEq, eq_comm]
              exact names_eq_iff place otherPlace
            by_cases shared : first.outputStem = input.outputStem
            · simp [shared, same, FileTree.read_insert_eq_ok_iff place.noDirectory, located,
                eq_comm]
            · simp [shared, FileTree.read_insert_eq_ok_iff place.noDirectory, located]

/-- In every order of work, no graph is lost just when files that share a stem have the same
export. -/
theorem keeps_all_iff (batch : Batch rendering prune tree directory inputs)
    (perm : order.Perm inputs) :
    ∃ after, (extractFiles (m := StateM FileTree) rendering prune order directory).run tree =
        (order.map fun input => .ok (rendering.outputOf directory input), after) ∧
      ((∀ input ∈ inputs, ∃ bytes, exportOf rendering prune tree input = some bytes ∧
          after.read (rendering.outputOf directory input) = .ok bytes) ↔
        ∀ first ∈ inputs, ∀ second ∈ inputs, first.outputStem = second.outputStem →
          exportOf rendering prune tree first = exportOf rendering prune tree second) := by
  obtain ⟨after, done, holds⟩ := batch.run_extractFiles fun _ => perm.mem_iff.mp
  -- The last file with the stem of an input is an input itself.
  have last : ∀ input ∈ inputs, ∃ last ∈ inputs, last.outputStem = input.outputStem ∧
      order.reverse.find? (·.outputStem == input.outputStem) = some last := by
    intro input listed
    cases found : order.reverse.find? (·.outputStem == input.outputStem) with
    | none =>
        have missing := List.find?_eq_none.mp found input
          (List.mem_reverse.mpr (perm.mem_iff.mpr listed))
        simp at missing
    | some last =>
        have listed := perm.mem_iff.mp (List.mem_reverse.mp (List.mem_of_find?_eq_some found))
        exact ⟨last, listed, by simpa using List.find?_some found, rfl⟩
  refine ⟨after, done, ?_, ?_⟩
  · intro kept first firstListed second secondListed shared
    obtain ⟨firstBytes, firstSame, firstRead⟩ := kept first firstListed
    obtain ⟨secondBytes, secondSame, secondRead⟩ := kept second secondListed
    obtain ⟨final, _, _, found⟩ := last first firstListed
    rw [holds first firstListed, found] at firstRead
    rw [holds second secondListed, ← shared, found] at secondRead
    rw [firstSame, secondSame, ← firstRead, ← secondRead]
  · intro agree input listed
    obtain ⟨bytes, same⟩ := batch.exports input listed
    obtain ⟨final, finalListed, shared, found⟩ := last input listed
    refine ⟨bytes, same, ?_⟩
    rw [holds input listed, found]
    exact (agree final finalListed input listed shared).trans same

/-- Source files with and without a stem in common. -/
def sampleTree : FileTree where
  entries := [(["a"], .directory), (["a", "x.rs"], .file (Utf8.bytesOf "struct A;")),
    (["bb"], .directory), (["bb", "x.rs"], .file (Utf8.bytesOf "struct B;")),
    (["bb", "y.rs"], .file (Utf8.bytesOf "struct B;")), (["out"], .directory)]

/-- Two of the files, with different stems. -/
def sampleInputs : List Path :=
  [⟨"a/x.rs"⟩, ⟨"bb/y.rs"⟩]

theorem batch_sample : Batch { format := .bincode } false sampleTree ⟨"out"⟩ sampleInputs := by
  have exported : ∀ input ∈ sampleInputs,
      (exportOf { format := .bincode } false sampleTree input).isSome := by decide +kernel
  constructor
  case exports => exact fun input listed => Option.isSome_iff_exists.mp (exported input listed)
  case places =>
    intro input listed
    rcases List.mem_pair.mp listed with rfl | rfl
    · exact ⟨["out", "x.bin"], by decide +kernel, by decide +kernel, by decide +kernel⟩
    · exact ⟨["out", "y.bin"], by decide +kernel, by decide +kernel, by decide +kernel⟩
  case apart => decide +kernel

theorem keeps_all_sample :
    Batch { format := .bincode } false sampleTree ⟨"out"⟩ sampleInputs ∧
      sampleInputs.reverse.Perm sampleInputs ∧
      ∃ after, (extractFiles (m := StateM FileTree) { format := .bincode } false
          sampleInputs.reverse ⟨"out"⟩).run sampleTree =
          (sampleInputs.reverse.map fun input =>
            .ok (Rendering.outputOf { format := .bincode } ⟨"out"⟩ input), after) ∧
        ∀ input ∈ sampleInputs, ∃ bytes,
          exportOf { format := .bincode } false sampleTree input = some bytes ∧
            after.read (Rendering.outputOf { format := .bincode } ⟨"out"⟩ input) = .ok bytes := by
  have perm := List.reverse_perm sampleInputs
  obtain ⟨after, done, kept⟩ := batch_sample.keeps_all_iff perm
  exact ⟨batch_sample, perm, after, done, kept.mpr (by decide +kernel)⟩

/-- What the program does with two source files. -/
def runOnTwo (first second : String) : CommandLine.Ending × FileTree :=
  (CommandLine.run (m := StateM FileTree)
    ["extract", "-i", first, "-i", second, "-o", "out", "-f", "bincode"]).run sampleTree

/-- Whether the export of a source file is in some file of a tree. -/
def isKept (tree : FileTree) (input : Path) : Bool :=
  (exportOf { format := .bincode } false sampleTree input).any fun bytes =>
    tree.entries.any (·.2 == .file bytes)

/-- Of two files that share a stem the program loses the one that it works on first, and
ends as if it had done what it was asked for. -/
theorem loses_shared_stem :
    (runOnTwo "a/x.rs" "bb/x.rs").1 = .done ∧ (runOnTwo "bb/x.rs" "a/x.rs").1 = .done ∧
      isKept (runOnTwo "a/x.rs" "bb/x.rs").2 ⟨"a/x.rs"⟩ = false ∧
      isKept (runOnTwo "bb/x.rs" "a/x.rs").2 ⟨"bb/x.rs"⟩ = false ∧
      isKept (runOnTwo "a/x.rs" "bb/y.rs").2 ⟨"a/x.rs"⟩ = true := by
  decide +kernel

end Batch

end ProgramGraph
