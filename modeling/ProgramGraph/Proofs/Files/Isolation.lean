import ProgramGraph.Proofs.Files.Turns

/-!
# Failures stay apart

Several source files are worked on in one run, by one process for each of them that takes turns
with the others.  If the output files have different paths, the turns make no difference.  A
source file whose graph is written has the output that it has alone, a source file that cannot
be read or parsed leaves its output path as it is, and the run fails just when some source files
fail alone, with their number.
-/

namespace ProgramGraph

open Attempt FileTree

variable {rendering : Rendering} {prune : Bool} {directory output input answer : Path}
  {inputs : List Path} {choices : Choices} {settings : Settings} {tree made after : FileTree}

/-! ## One source file -/

/-- What is extracted from a source file, or why it cannot be read or parsed. -/
def extractionOf (prune : Bool) (tree : FileTree) (input : Path) : Except Failure Extraction := do
  let bytes ← (tree.read input).mapError (.unreadSource input)
  let source ← (Utf8.textOf bytes).mapError fun _ => .unreadSource input .notText
  (Extraction.ofSource prune input.text source).mapError (.notExtracted input.text)

/-- Nothing is written for a source file that cannot be read or parsed. -/
theorem on_extractFile_eq :
    on (extractFile rendering prune input directory) tree =
      match extractionOf prune tree input with
      | .ok extraction => on (do
          save rendering extraction.graph (rendering.outputOf directory input)
          return rendering.outputOf directory input) tree
      | .error cause => (.error cause, tree) := by
  cases read : tree.read input with
  | error fault =>
      have unread : extractionOf prune tree input = .error (.unreadSource input fault) := by
        rw [extractionOf, read]
        rfl
      rw [unread, extractFile, on_bind, readText, on_bind, Work.on_use_read, read]
      rfl
  | ok bytes =>
      cases decoded : Utf8.textOf bytes with
      | error fault =>
          have unread : extractionOf prune tree input = .error (.unreadSource input .notText) := by
            simp only [extractionOf, read, decoded, Except.mapError, bind, Except.bind]
          rw [unread, extractFile, on_bind, readText, on_bind, Work.on_use_read, read]
          simp only [Except.mapError, Work.on_settle, decoded]
      | ok source =>
          have value : extractionOf prune tree input =
              (Extraction.ofSource prune input.text source).mapError
                (.notExtracted input.text) := by
            simp only [extractionOf, read, decoded, Except.mapError, bind, Except.bind]
          cases parsed : Extraction.ofSource prune input.text source with
          | error cause =>
              rw [value, parsed, extractFile, on_bind, on_readText _ read decoded]
              simp only [on_bind, extractText, Work.on_settle, parsed, Except.mapError]
          | ok extraction =>
              rw [value, parsed]
              exact on_extractFile rendering prune input directory read decoded parsed

/-- If a source file is worked on with success, there is a file at its output path. -/
theorem read_of_on_extractFile
    (done : on (extractFile rendering prune input directory) tree = (.ok answer, after)) :
    ∃ bytes, after.read (rendering.outputOf directory input) = .ok bytes := by
  rw [on_extractFile_eq] at done
  split at done
  · next extraction _ =>
    rw [on_bind, on_work_save] at done
    by_cases place : ∃ names, tree.IsPlace (rendering.outputOf directory input) names
    · obtain ⟨names, place⟩ := place
      rw [Rendering.on_save rendering extraction.graph place] at done
      cases shown : rendering.content extraction.graph with
      | error cause =>
          rw [shown] at done
          cases done
      | ok content =>
          rw [shown] at done
          cases done
          exact ⟨content.bytes, place.read_insert⟩
    · obtain ⟨fault, refused⟩ :=
        Rendering.on_save_of_not_isPlace rendering extraction.graph (not_exists.mp place)
      rw [refused] at done
      cases done
  · cases done

/-! ## Tasks -/

theorem on_runExtractionBy
    (extract : Rendering → Bool → List Path → Path →
      StateM FileTree (List (Except Failure Path)))
    (prepared : on (prepare output choices) tree = (.ok settings, made)) :
    on (runExtractionBy extract inputs output prune choices) tree =
      let finished :=
        (extract settings.toRendering (settings.prune || prune) inputs output).run made
      (if (failures finished.1).isEmpty then .ok ()
        else .error (.inputs (failures finished.1) inputs.length), finished.2) := by
  rw [runExtractionBy, on_bind, prepared]
  dsimp only
  have lifted (program : StateM FileTree (List (Except Failure Path))) :
      on (liftM program : Attempt TaskFailure FileTree _) made =
        (.ok (program.run made).1, (program.run made).2) := rfl
  rw [on_bind, lifted]
  dsimp only
  split <;> rfl

/-- Without turns the task is the one that works on one file after the other. -/
theorem runExtractionBy_nil :
    runExtractionBy (extractInTurns []) inputs output prune choices =
      runExtraction inputs output prune choices := by
  rw [runExtraction]
  congr 1
  funext rendering prune
  exact Process.extractInTurns_nil rendering prune

/-- What a task does with one source file alone. -/
def extractAlone (tree : FileTree) (output : Path) (prune : Bool) (choices : Choices)
    (input : Path) : Except TaskFailure Unit × FileTree :=
  on (runExtraction [input] output prune choices) tree

/-- How many source files fail alone. -/
def failedAlone (tree : FileTree) (output : Path) (prune : Bool) (choices : Choices)
    (inputs : List Path) : Nat :=
  inputs.countP fun input => !(extractAlone tree output prune choices input).1.isOk

theorem run_extractFiles_singleton :
    (extractFiles (m := StateM FileTree) rendering prune [input] directory).run tree =
      let worked := on (extractFile rendering prune input directory) tree
      ([worked.1], worked.2) := by
  rw [extractFiles, List.mapM_cons]
  rfl

theorem extractAlone_eq (prepared : on (prepare output choices) tree = (.ok settings, made)) :
    extractAlone tree output prune choices input =
      let worked :=
        on (extractFile settings.toRendering (settings.prune || prune) input output) made
      ((worked.1.map fun _ => ()).mapError fun cause => .inputs [cause] 1, worked.2) := by
  rw [extractAlone, runExtraction, on_runExtractionBy extractFiles prepared,
    run_extractFiles_singleton]
  dsimp only
  cases (on (extractFile settings.toRendering _ input output) made).1 <;> rfl

theorem length_failures {α : Type} (results : List (Except Failure α)) :
    (failures results).length = results.countP (!·.isOk) := by
  rw [failures, List.length_filterMap_eq_countP]
  congr 1
  funext result
  cases result <;> rfl

theorem isOk_eq {ε α : Type} (result : Except ε α) : result.isOk = result.toOption.isSome := by
  cases result <;> rfl

/-- Whatever the turns are, as many source files fail as fail alone. -/
theorem length_failures_in_turns (schedule : List Nat) (prune : Bool)
    (prepared : on (prepare output choices) tree = (.ok settings, made))
    (distinct : (inputs.map (settings.toRendering.outputOf output)).Nodup) :
    (failures ((extractInTurns schedule settings.toRendering (settings.prune || prune) inputs
        output).run made).1).length = failedAlone tree output prune choices inputs := by
  have asAlone (position : Nat) (input : Path) (listed : inputs[position]? = some input) :=
    Process.isAsAlone_extractInTurns schedule (settings.prune || prune) distinct listed made
  have sameLength : ((extractInTurns schedule settings.toRendering (settings.prune || prune)
      inputs output).run made).1.length = inputs.length := by
    rw [extractInTurns, Process.length_atOnce, List.length_map]
  generalize (extractInTurns schedule settings.toRendering (settings.prune || prune) inputs
    output).run made = finished at asAlone sameLength ⊢
  have outcomes : finished.1.map (·.isOk) =
      inputs.map fun input => (extractAlone tree output prune choices input).1.isOk := by
    apply List.ext_getElem (by simp [sameLength])
    intro position inside listed
    rw [List.length_map] at inside listed
    obtain ⟨⟨result, found, same⟩, _⟩ := asAlone position _ (List.getElem?_eq_getElem listed)
    rw [List.getElem?_eq_getElem inside, Option.some_inj] at found
    rw [List.getElem_map, List.getElem_map, found, extractAlone_eq prepared, isOk_eq, same]
    dsimp only
    cases (on (extractFile settings.toRendering _ _ output) made).1 <;> rfl
  calc (failures finished.1).length
    _ = finished.1.countP (!·.isOk) := length_failures finished.1
    _ = (finished.1.map (·.isOk)).countP (!·) := by rw [List.countP_map]; rfl
    _ = failedAlone tree output prune choices inputs := by rw [outcomes, List.countP_map]; rfl

/-- What a task did with source files is what it does with each of them alone: the export of a
file that is extracted, nothing for a file that cannot be read or parsed, and a report on how
many of them fail. -/
structure Isolated (tree made : FileTree) (settings : Settings) (inputs : List Path)
    (output : Path) (prune : Bool) (choices : Choices)
    (finished : Except TaskFailure Unit × FileTree) : Prop where
  extracted : ∀ input ∈ inputs, (extractAlone tree output prune choices input).1 = .ok () →
    ∃ bytes,
      (extractAlone tree output prune choices input).2.read
          (settings.toRendering.outputOf output input) = .ok bytes ∧
        finished.2.read (settings.toRendering.outputOf output input) = .ok bytes
  untouched : ∀ input ∈ inputs, ∀ cause,
    extractionOf (settings.prune || prune) made input = .error cause →
      (extractAlone tree output prune choices input).1 ≠ .ok () ∧
        finished.2.find? (settings.toRendering.outputOf output input) =
          made.find? (settings.toRendering.outputOf output input)
  reported : finished.1.mapError TaskFailure.chain =
    let failed := failedAlone tree output prune choices inputs
    if failed = 0 then .ok () else .error [s!"{failed} of {inputs.length} inputs failed"]

/-- Once the settings are read and the directory is made, source files whose output files have
different paths are worked on in isolation. -/
theorem isolated_of_prepared (prune : Bool) (schedule : List Nat)
    (prepared : on (prepare output choices) tree = (.ok settings, made))
    (distinct : (inputs.map (settings.toRendering.outputOf output)).Nodup) :
    Isolated tree made settings inputs output prune choices
      (on (runExtractionBy (extractInTurns schedule) inputs output prune choices) tree) := by
  have asAlone (position : Nat) (input : Path) (listed : inputs[position]? = some input) :=
    Process.isAsAlone_extractInTurns schedule (settings.prune || prune) distinct listed made
  rw [on_runExtractionBy _ prepared]
  constructor
  case extracted =>
    intro input listed done
    obtain ⟨position, found⟩ := List.mem_iff_getElem?.mp listed
    obtain ⟨_, alike⟩ := asAlone position input found
    rw [extractAlone_eq prepared] at done ⊢
    cases worked : on (extractFile settings.toRendering (settings.prune || prune) input output)
        made with
    | mk result after =>
        cases result with
        | error cause =>
            rw [worked] at done
            cases done
        | ok answer =>
            obtain ⟨bytes, read⟩ := read_of_on_extractFile worked
            refine ⟨bytes, read, ?_⟩
            rw [worked] at alike
            rw [read_eq_ok_iff_find?] at read ⊢
            exact alike.target.trans read
  case untouched =>
    intro input listed cause unread
    obtain ⟨position, found⟩ := List.mem_iff_getElem?.mp listed
    obtain ⟨_, alike⟩ := asAlone position input found
    rw [extractAlone_eq prepared]
    rw [on_extractFile_eq, unread] at alike ⊢
    refine ⟨?_, alike.target⟩
    rintro ⟨⟩
  case reported =>
    have count := length_failures_in_turns schedule prune prepared distinct
    dsimp only
    generalize failures (((extractInTurns schedule settings.toRendering
      (settings.prune || prune) inputs output).run made).1) = causes at count ⊢
    rw [← count]
    cases causes with
    | nil => rfl
    | cons cause causes => rfl

/-- Without settings or without the directory no source file is worked on. -/
theorem on_runExtractionBy_of_unprepared {cause : TaskFailure}
    (extract : Rendering → Bool → List Path → Path →
      StateM FileTree (List (Except Failure Path)))
    (unprepared : on (prepare output choices) tree = (.error cause, after)) :
    on (runExtractionBy extract inputs output prune choices) tree = (.error cause, after) := by
  rw [runExtractionBy, on_bind, unprepared]

/-- Source files whose output files have different paths are worked on in isolation, whatever
the turns of their processes are.  A source file may even be the output file of itself, and it
is never the output file of another one: the two would have one stem, and so one output path.
Where the settings cannot be read or the directory cannot be made, the task fails for this
cause, and so it does with each of the files alone.  Without turns it is the task that works on
one file after the other. -/
theorem isolated_of_distinct_outputs (tree : FileTree) (inputs : List Path) (output : Path)
    (prune : Bool) (choices : Choices) (schedule : List Nat)
    (distinct : ∀ settings made, on (prepare output choices) tree = (.ok settings, made) →
      (inputs.map (settings.toRendering.outputOf output)).Nodup) :
    let finished :=
      on (runExtractionBy (extractInTurns schedule) inputs output prune choices) tree
    (∀ settings made, on (prepare output choices) tree = (.ok settings, made) →
        Isolated tree made settings inputs output prune choices finished) ∧
      (∀ cause after, on (prepare output choices) tree = (.error cause, after) →
        finished = (.error cause, after) ∧
          ∀ input, extractAlone tree output prune choices input = (.error cause, after)) ∧
      (schedule = [] → finished = on (runExtraction inputs output prune choices) tree) := by
  refine ⟨?_, ?_, ?_⟩
  · intro settings made prepared
    exact isolated_of_prepared prune schedule prepared (distinct settings made prepared)
  · intro cause after unprepared
    constructor
    · exact on_runExtractionBy_of_unprepared _ unprepared
    · intro input
      rw [extractAlone, runExtraction]
      exact on_runExtractionBy_of_unprepared _ unprepared
  · rintro rfl
    exact congrArg (on · tree) runExtractionBy_nil

/-- Source files that have a graph, are no text and do not parse, and what an earlier run has
left for the last one. -/
def mixedTree : FileTree where
  entries := [(["a"], .directory), (["a", "good.rs"], .file (Utf8.bytesOf "struct A;")),
    (["a", "bytes.rs"], .file [0xff]), (["a", "odd.rs"], .file (Utf8.bytesOf "struct")),
    (["out"], .directory), (["out", "odd.bin"], .file [1, 2, 3])]

/-- These source files and one that is missing. -/
def mixedInputs : List Path :=
  [⟨"a/odd.rs"⟩, ⟨"a/good.rs"⟩, ⟨"a/gone.rs"⟩, ⟨"a/bytes.rs"⟩]

/-- Graphs as bytes. -/
def mixedChoices : Choices where
  format := some .bincode

theorem isolated_mixed :
    let settings : Settings := { format := .bincode }
    let schedule := [1, 3, 0, 1, 2, 1]
    let finished := on
      (runExtractionBy (extractInTurns schedule) mixedInputs ⟨"out"⟩ false mixedChoices) mixedTree
    on (prepare ⟨"out"⟩ mixedChoices) mixedTree = (.ok settings, mixedTree) ∧
      (mixedInputs.map (settings.toRendering.outputOf ⟨"out"⟩)).Nodup ∧
      Isolated mixedTree mixedTree settings mixedInputs ⟨"out"⟩ false mixedChoices finished ∧
      finished.1.mapError TaskFailure.chain = .error ["3 of 4 inputs failed"] := by
  intro settings schedule finished
  have prepared : on (prepare ⟨"out"⟩ mixedChoices) mixedTree = (.ok settings, mixedTree) := by
    decide +kernel
  have distinct : (mixedInputs.map (settings.toRendering.outputOf ⟨"out"⟩)).Nodup := by
    decide +kernel
  have isolated := (isolated_of_distinct_outputs mixedTree mixedInputs ⟨"out"⟩ false mixedChoices
    schedule fun other made prepares => by
      rw [prepared] at prepares
      cases prepares
      exact distinct).1 settings mixedTree prepared
  exact ⟨prepared, distinct, isolated, isolated.reported.trans (by decide +kernel)⟩

end ProgramGraph
