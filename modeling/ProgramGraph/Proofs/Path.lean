import Mathlib.Data.List.Basic
import ProgramGraph.Rendering
import ProgramGraph.Path

/-!
# The names of output files

The graph of a file is written under the stem of the file, which may hold dots, begin
with one, or be missing.  Whatever it is, the name of the output has the extension that
it was given, in the sense in which extensions are read back from paths.
-/

namespace ProgramGraph

namespace Path

/-! ## Pieces -/

theorem split_ne_nil (chars : List Char) : split chars ≠ [] := by
  cases chars with
  | nil => exact List.cons_ne_nil _ _
  | cons c rest =>
      rw [split]
      split
      · exact List.cons_ne_nil _ _
      · split <;> exact List.cons_ne_nil _ _

/-- A slash ends the piece before it. -/
theorem split_append_slash (front back : List Char) :
    split (front ++ '/' :: back) = split front ++ split back := by
  induction front with
  | nil => rfl
  | cons c front ih =>
      rw [List.cons_append, split, split, ih]
      split
      · rfl
      · cases pieces : split front with
        | nil => exact absurd pieces (split_ne_nil front)
        | cons piece pieces => rfl

theorem split_of_not_mem {piece : List Char} (noSlash : '/' ∉ piece) : split piece = [piece] := by
  induction piece with
  | nil => rfl
  | cons c piece ih =>
      rw [List.mem_cons, not_or] at noSlash
      rw [split, if_neg (Ne.symm noSlash.1), ih noSlash.2]

/-- There is no slash within a piece. -/
theorem not_mem_of_mem_split {chars piece : List Char} (member : piece ∈ split chars) :
    '/' ∉ piece := by
  induction chars generalizing piece with
  | nil =>
      rw [split, List.mem_singleton] at member
      exact member ▸ List.not_mem_nil
  | cons c rest ih =>
      rw [split] at member
      split at member
      · rcases List.mem_cons.mp member with rfl | later
        · exact List.not_mem_nil
        · exact ih later
      · next noSlash =>
        cases pieces : split rest with
        | nil => exact absurd pieces (split_ne_nil rest)
        | cons first others =>
            rw [pieces] at ih member
            rcases List.mem_cons.mp member with rfl | later
            · rw [List.mem_cons, not_or]
              exact ⟨Ne.symm noSlash, ih List.mem_cons_self⟩
            · exact ih (List.mem_cons_of_mem _ later)

/-- The pieces of characters that lead somewhere. -/
def activePieces (chars : List Char) : List String :=
  ((split chars).map String.ofList).filter (!isIdle ·)

theorem activePieces_append_slash (front back : List Char) :
    activePieces (front ++ '/' :: back) = activePieces front ++ activePieces back := by
  rw [activePieces, split_append_slash, List.map_append, List.filter_append]
  rfl

variable {directory file : Path}

/-- A path within a directory leads through the directory first. -/
theorem activePieces_join (inside : file.text.toList.head? ≠ some '/') :
    activePieces (directory.join file).text.toList =
      activePieces directory.text.toList ++ activePieces file.text.toList := by
  rw [join, if_neg (by simpa using inside)]
  have nothing : activePieces [] = [] := rfl
  by_cases unnamed : directory.text = ""
  · simp [unnamed, nothing]
  by_cases ended : directory.text.toList.getLast? = some '/'
  · obtain ⟨front, ends⟩ := List.getLast?_eq_some_iff.mp ended
    have closed := activePieces_append_slash front []
    have joined := activePieces_append_slash front file.text.toList
    rw [nothing, List.append_nil] at closed
    simp [ends, closed, joined]
  · have joined := activePieces_append_slash directory.text.toList file.text.toList
    simp [unnamed, ended, joined]

/-! ## Stems and extensions -/

/-- What may stand after the last dot of a name. -/
structure IsExtension (extension : String) : Prop where
  ne_empty : extension ≠ ""
  noDot : '.' ∉ extension.toList
  noSlash : '/' ∉ extension.toList

theorem splitName_append_dot {stem extension : List Char} (named : stem ≠ [])
    (noDot : '.' ∉ extension) :
    splitName (stem ++ '.' :: extension) = (stem, some extension) := by
  have plain : ∀ c ∈ extension.reverse, (c != '.') = true := by
    intro c member
    exact bne_iff_ne.mpr fun dot => noDot (dot ▸ List.mem_reverse.mp member)
  have reversed : (stem ++ '.' :: extension).reverse =
      extension.reverse ++ '.' :: stem.reverse := by
    simp
  simp only [splitName, reversed, List.dropWhile_append_of_pos plain,
    List.takeWhile_append_of_pos plain]
  simp [named]

/-- The stem of a name is not empty, and the name begins with it. -/
theorem splitName_stem {name : List Char} (named : name ≠ []) :
    (splitName name).1 ≠ [] ∧ (splitName name).1 <+: name := by
  have begins : ((name.reverse.dropWhile (· != '.')).tail).reverse <+: name := by
    rw [← List.reverse_suffix, List.reverse_reverse]
    exact (List.tail_suffix _).trans (List.dropWhile_suffix _)
  rw [splitName]
  split
  · exact ⟨named, List.prefix_rfl⟩
  · next filled =>
    exact ⟨fun empty => filled (List.isEmpty_iff.mpr empty), begins⟩

/-! ## Output files -/

/-- The name that a path ends in is one of its pieces, and leads somewhere. -/
theorem mem_of_name? {path : Path} {name : String} (found : path.name? = some name) :
    name.toList ∈ split path.text.toList ∧ name ≠ "" := by
  obtain ⟨last, _⟩ := Option.filter_eq_some_iff.mp found
  obtain ⟨member, active⟩ := List.mem_filter.mp (List.mem_of_getLast? last)
  obtain ⟨piece, listed, rfl⟩ := List.mem_map.mp member
  refine ⟨by rwa [String.toList_ofList], ?_⟩
  rintro empty
  simp [isIdle, empty] at active

/-- The stem of the name under which the graph of a file is written. -/
def outputStem (input : Path) : String :=
  input.stem?.getD "graph"

/-- The stem of an output file is not empty, and no slash is in it. -/
theorem stem_of_output (input : Path) :
    outputStem input ≠ "" ∧ '/' ∉ (outputStem input).toList := by
  rw [outputStem]
  cases found : input.name? with
  | none => simp [stem?, found]
  | some name =>
      obtain ⟨listed, filled⟩ := mem_of_name? found
      have namedPiece : name.toList ≠ [] := by simpa using filled
      obtain ⟨named, begins⟩ := splitName_stem namedPiece
      have noSlash : '/' ∉ (splitName name.toList).1 := fun slash =>
        not_mem_of_mem_split listed (begins.subset slash)
      simpa [stem?, found] using ⟨named, noSlash⟩

/-- The name under which the graph of a file is written. -/
def outputName (input : Path) (extension : String) : String :=
  outputStem input ++ "." ++ extension

section Output

variable {extension : String}

theorem toList_outputName (input : Path) (extension : String) :
    (outputName input extension).toList =
      (outputStem input).toList ++ '.' :: extension.toList := by
  simp [outputName]

theorem slash_notMem_outputName (input : Path) (fits : IsExtension extension) :
    '/' ∉ (outputName input extension).toList := by
  obtain ⟨_, noSlash⟩ := stem_of_output input
  simp [toList_outputName, noSlash, fits.noSlash]

/-- The name of an output file is longer than those that lead nowhere or up. -/
theorem outputName_ne (input : Path) (fits : IsExtension extension) {other : String}
    (short : other.toList.length < 3) : outputName input extension ≠ other := by
  rintro rfl
  have stemLength : (outputStem input).toList.length ≠ 0 := by
    simpa using (stem_of_output input).1
  have extensionLength : extension.toList.length ≠ 0 := by simpa using fits.ne_empty
  rw [toList_outputName, List.length_append, List.length_cons] at short
  omega

/-- Output files of one extension share their names just when they share their stems. -/
theorem outputName_inj {input other : Path} :
    outputName input extension = outputName other extension ↔
      outputStem input = outputStem other := by
  rw [← String.toList_inj, toList_outputName, toList_outputName, List.append_left_inj,
    String.toList_inj]

/-- An output file has a name of its own in the directory. -/
theorem activePieces_ofOutput (input directory : Path) (fits : IsExtension extension) :
    activePieces (ofOutput input directory extension).text.toList =
      activePieces directory.text.toList ++ [outputName input extension] := by
  have noSlash := slash_notMem_outputName input fits
  have inside : (outputName input extension).toList.head? ≠ some '/' :=
    fun first => noSlash (List.mem_of_mem_head? first)
  have active : isIdle (outputName input extension) = false := by
    simp [isIdle, outputName_ne input fits]
  have joined : activePieces (ofOutput input directory extension).text.toList =
      activePieces directory.text.toList ++ activePieces (outputName input extension).toList :=
    activePieces_join inside
  rw [joined]
  simp [activePieces, split_of_not_mem noSlash, active]

theorem name?_ofOutput (input directory : Path) (fits : IsExtension extension) :
    (ofOutput input directory extension).name? = some (outputName input extension) := by
  change (activePieces _).getLast?.filter (· != "..") = _
  rw [activePieces_ofOutput input directory fits, List.getLast?_concat]
  simp [Option.filter, outputName_ne input fits]

/-- A path that ends in the name of an output file has the stem of the input. -/
theorem outputStem_of_name? {path input : Path} (fits : IsExtension extension)
    (named : path.name? = some (outputName input extension)) :
    path.outputStem = input.outputStem := by
  have filled : (outputStem input).toList ≠ [] := by simpa using (stem_of_output input).1
  rw [outputStem, stem?, named, Option.map_some, toList_outputName,
    splitName_append_dot filled fits.noDot, String.ofList_toList, Option.getD_some]

/-- Output files in one directory share their paths just when the inputs share their stems. -/
theorem ofOutput_inj {input other directory : Path} (fits : IsExtension extension) :
    ofOutput input directory extension = ofOutput other directory extension ↔
      input.outputStem = other.outputStem := by
  constructor
  · intro same
    have named := name?_ofOutput input directory fits
    rw [same, name?_ofOutput other directory fits, Option.some_inj] at named
    exact (outputName_inj.mp named).symm
  · intro same
    change directory.join ⟨outputStem input ++ "." ++ extension⟩ = _
    rw [same]
    rfl

/-- The extension is read back from the path of an output file, whatever the name of the
input is. -/
theorem extension?_ofOutput (input directory : Path) (fits : IsExtension extension) :
    (ofOutput input directory extension).extension? = some extension := by
  have named : (outputStem input).toList ≠ [] := by simpa using (stem_of_output input).1
  rw [extension?, name?_ofOutput input directory fits, Option.bind_some, toList_outputName,
    splitName_append_dot named fits.noDot, Option.map_some, String.ofList_toList]

/-- A dot at the beginning of a name is part of its stem, and a name may have many dots. -/
example :
    (ofOutput ⟨"in/.json"⟩ ⟨"out/"⟩ "bin").text = "out/.json.bin" ∧
      (ofOutput ⟨"in/a.b.json"⟩ ⟨""⟩ "bin").text = "a.b.bin" ∧
      (ofOutput ⟨".."⟩ ⟨"out"⟩ "json").text = "out/graph.json" := by
  decide +kernel

end Output

end Path

theorem Format.isExtension (format : Format) : Path.IsExtension format.extension := by
  cases format <;> constructor <;> decide

/-- Where the graph of a source file is written. -/
def Rendering.outputOf (rendering : Rendering) (directory input : Path) : Path :=
  Path.ofOutput input directory rendering.format.extension

end ProgramGraph
