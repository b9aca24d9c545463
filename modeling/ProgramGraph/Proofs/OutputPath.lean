import Mathlib.Data.List.Basic
import ProgramGraph.Component
import ProgramGraph.Proofs.Path

/-!
# Where output files stand

The path of an output file has one component more than its directory, and that is a name.  So
whatever the path of the input says, with slashes, dots or steps upwards, the file stands in the
directory itself.  Its name is the stem of the input with the extension of the format behind it.
-/

namespace ProgramGraph

namespace Path

variable {directory path : Path} {front : List Char} {name : String}

/-! ## The beginning of a path -/

theorem head?_split_append_slash (front back : List Char) :
    (split (front ++ '/' :: back)).head? = (split front).head? := by
  rw [split_append_slash, List.head?_append_of_ne_nil _ (split_ne_nil front)]

/-- What stands behind a slash does not change how a path begins. -/
theorem lead_append_slash (filled : front ≠ []) (back : List Char) :
    lead (front ++ '/' :: back) = lead front := by
  rw [lead, lead, head?_split_append_slash, List.head?_append_of_ne_nil _ filled]

theorem lead_slash (front back : List Char) :
    lead (front ++ '/' :: back) = lead (front ++ ['/']) := by
  rw [lead, lead, head?_split_append_slash, head?_split_append_slash]
  cases front <;> rfl

theorem named_notMem_lead (chars : List Char) : .named name ∉ lead chars := by
  rw [lead]
  split
  · simp
  · split <;> simp

/-! ## Names as components -/

theorem ofPiece_eq_named_iff {piece : String} :
    Component.ofPiece piece = .named name ↔ piece = name ∧ name ≠ ".." := by
  rw [Component.ofPiece]
  split
  · next up =>
    rw [beq_iff_eq.mp up]
    simp [eq_comm]
  · next other =>
    have different : piece ≠ ".." := by simpa using other
    constructor
    · rintro ⟨⟩
      exact ⟨rfl, different⟩
    · rintro ⟨rfl, -⟩
      rfl

/-- The name that a path ends in is its last component. -/
theorem name?_eq_some_iff :
    path.name? = some name ↔ path.components.getLast? = some (.named name) := by
  have named : path.name? = (activePieces path.text.toList).getLast?.filter (· != "..") := rfl
  rw [named, components]
  change _ ↔ (lead _ ++ (activePieces path.text.toList).map Component.ofPiece).getLast? = _
  rcases List.eq_nil_or_concat (activePieces path.text.toList) with none | ⟨before, last, ends⟩
  · rw [none, List.map_nil, List.append_nil]
    constructor
    · rintro ⟨⟩
    · exact fun found => absurd (List.mem_of_getLast? found) (named_notMem_lead _)
  · rw [ends, List.concat_eq_append, List.getLast?_concat, List.map_append,
      List.map_singleton, ← List.append_assoc, List.getLast?_concat, Option.some_inj,
      ofPiece_eq_named_iff, Option.filter_eq_some_iff, Option.some_inj, bne_iff_ne]

section Named

variable (noSlash : '/' ∉ name.toList) (active : ¬isIdle name) (other : name ≠ "..")

include noSlash in
theorem head?_ne_slash : name.toList.head? ≠ some '/' :=
  fun first => noSlash (List.mem_of_mem_head? first)

include noSlash active in
theorem lead_of_name : lead name.toList = [] := by
  have inside := head?_ne_slash noSlash
  have notDot : name ≠ "." := fun dot => active (by rw [dot]; rfl)
  rw [lead, split_of_not_mem noSlash, if_neg, if_neg]
  · simpa [String.ext_iff] using notDot
  · simpa using inside

include noSlash active in
theorem activePieces_of_name : activePieces name.toList = [name] := by
  simp [activePieces, split_of_not_mem noSlash, active]

include noSlash active other in
/-- A name is a single component. -/
theorem components_of_name : (Path.mk name).components = [.named name] := by
  change lead name.toList ++ (activePieces name.toList).map .ofPiece = _
  rw [lead_of_name noSlash active, activePieces_of_name noSlash active]
  exact congrArg (fun component => [component]) (ofPiece_eq_named_iff.mpr ⟨rfl, other⟩)

include noSlash active in
/-- A path within a directory begins as the directory does. -/
theorem lead_join : lead (directory.join ⟨name⟩).text.toList = lead directory.text.toList := by
  have inside := head?_ne_slash noSlash
  rw [join, if_neg (by simpa using inside)]
  by_cases unnamed : directory.text = ""
  · have nothing : lead [] = [] := rfl
    simpa [unnamed, nothing] using lead_of_name noSlash active
  by_cases ended : directory.text.toList.getLast? = some '/'
  · obtain ⟨front, ends⟩ := List.getLast?_eq_some_iff.mp ended
    simpa [ends] using lead_slash front name.toList
  · have filled : directory.text.toList ≠ [] := by simpa using unnamed
    simpa [unnamed, ended] using lead_append_slash filled name.toList

include noSlash active other in
/-- Within a directory a name comes behind the components of the directory. -/
theorem components_join :
    (directory.join ⟨name⟩).components = directory.components ++ [.named name] := by
  have inside := head?_ne_slash noSlash
  have single := components_of_name noSlash active other
  change lead _ ++ (activePieces (directory.join ⟨name⟩).text.toList).map .ofPiece =
    lead _ ++ (activePieces directory.text.toList).map .ofPiece ++ _
  rw [lead_join noSlash active, activePieces_join inside, List.map_append, List.append_assoc]
  change lead name.toList ++ (activePieces name.toList).map .ofPiece = _ at single
  rw [lead_of_name noSlash active, List.nil_append] at single
  rw [single]

end Named

/-! ## Stems -/

/-- What a name has before its last dot.  A dot at the beginning is part of the stem, so a name
with no other dot is its own stem. -/
inductive IsStem (name : List Char) : List Char → Prop
  | beforeDot {stem ending : List Char} (filled : stem ≠ []) (last : '.' ∉ ending)
      (split : name = stem ++ '.' :: ending) : IsStem name stem
  | whole (undotted : '.' ∉ name.tail) : IsStem name name

theorem splitName_of_not_mem {name : List Char} (undotted : '.' ∉ name.tail) :
    splitName name = (name, none) := by
  cases name with
  | nil => rfl
  | cons c rest =>
      have plain : ∀ other ∈ rest.reverse, (other != '.') = true := by
        intro other member
        exact bne_iff_ne.mpr fun dot => undotted (dot ▸ List.mem_reverse.mp member)
      have nothing : (((c :: rest).reverse.dropWhile (· != '.')).tail.reverse).isEmpty := by
        rw [List.reverse_cons, List.dropWhile_append_of_pos plain, List.dropWhile_cons]
        split <;> rfl
      exact if_pos nothing

/-- A name has one stem. -/
theorem isStem_iff {name stem : List Char} : IsStem name stem ↔ (splitName name).1 = stem := by
  constructor
  · rintro (⟨filled, last, rfl⟩ | ⟨undotted⟩)
    · rw [splitName_append_dot filled last]
    · rw [splitName_of_not_mem undotted]
  · rintro rfl
    by_cases dotted : '.' ∈ name.tail
    · -- The first dot from the end is the last one.
      obtain ⟨ending, before, reversed, last⟩ :=
        List.eq_append_cons_of_mem (List.mem_reverse.mpr dotted)
      cases name with
      | nil => cases dotted
      | cons c rest =>
          have split : c :: rest = (c :: before.reverse) ++ '.' :: ending.reverse := by
            have turned := congrArg List.reverse reversed
            rw [List.reverse_reverse, List.tail_cons] at turned
            rw [turned]
            simp
          have undotted : '.' ∉ ending.reverse := by simpa using last
          have filled : c :: before.reverse ≠ [] := List.cons_ne_nil _ _
          rw [split, splitName_append_dot filled undotted]
          exact .beforeDot filled undotted rfl
    · rw [splitName_of_not_mem dotted]
      exact .whole dotted

/-! ## Output files -/

/-- Where an output file stands and what it is called, whatever the path of the input and the
path of the directory say. -/
structure StandsIn (input directory : Path) (extension : String) : Prop where
  /-- The path is that of the directory with one name more. -/
  joined : ofOutput input directory extension = directory.join ⟨outputName input extension⟩
  single : (Path.mk (outputName input extension)).components =
    [.named (outputName input extension)]
  components : (ofOutput input directory extension).components =
    directory.components ++ [.named (outputName input extension)]
  noSlash : '/' ∉ (outputName input extension).toList
  ne_dot : outputName input extension ≠ "."
  ne_dots : outputName input extension ≠ ".."
  outputName_eq : outputName input extension = outputStem input ++ "." ++ extension
  /-- The stem is that of the name that the input ends in. -/
  isStem : ∀ name, input.components.getLast? = some (.named name) →
    IsStem name.toList (outputStem input).toList
  /-- An input that ends in no name has the stem of its own. -/
  stem_unnamed : (∀ name, input.components.getLast? ≠ some (.named name)) →
    outputStem input = "graph"
  parent? : (ofOutput input directory extension).parent? = some directory.components
  extension? : (ofOutput input directory extension).extension? = some extension

theorem standsIn_ofOutput (input directory : Path) (format : Format) :
    StandsIn input directory format.extension := by
  have fits := format.isExtension
  have noSlash := slash_notMem_outputName input fits
  have active : ¬isIdle (outputName input format.extension) := by
    simp [isIdle, outputName_ne input fits]
  have ne_dots : outputName input format.extension ≠ ".." := outputName_ne input fits (by decide)
  have components : (ofOutput input directory format.extension).components =
      directory.components ++ [.named (outputName input format.extension)] :=
    components_join noSlash active ne_dots
  constructor
  case joined => rfl
  case single => exact components_of_name noSlash active ne_dots
  case components => exact components
  case noSlash => exact noSlash
  case ne_dot => exact outputName_ne input fits (by decide)
  case ne_dots => exact ne_dots
  case outputName_eq => rfl
  case isStem =>
    intro name ends
    have named := name?_eq_some_iff.mpr ends
    rw [outputStem, stem?, named, Option.map_some, Option.getD_some, String.toList_ofList]
    exact isStem_iff.mpr rfl
  case stem_unnamed =>
    intro ends
    cases named : input.name? with
    | none => rw [outputStem, stem?, named]; rfl
    | some name => exact absurd (name?_eq_some_iff.mp named) (ends name)
  case parent? => rw [parent?, components, List.getLast?_concat, List.dropLast_concat]
  case extension? => exact extension?_ofOutput input directory fits

/-- A dot at the front of a path is a component, a slash at the end is none. -/
example :
    (Path.mk "./a//b/./c/").components = [.current, .named "a", .named "b", .named "c"] ∧
      (Path.mk "/..").components = [.root, .up] ∧ (Path.mk "a/.").parent? = some [] := by
  decide +kernel

end Path

end ProgramGraph
