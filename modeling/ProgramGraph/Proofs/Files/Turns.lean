import ProgramGraph.Proofs.Files.Process

/-!
# Processes in turns

Several confined processes take turns on one tree of files.  Beside a process that shares the
tree with others stands the same process on a tree of its own.  As long as no other process
writes what it reads or writes, the two trees stay alike for it: a request of its own does the
same to both of them, and a request of another process does nothing that it could see.  So each
process has the answer and leaves the file that it has and leaves alone, whatever the turns are.
-/

namespace ProgramGraph

open Attempt

variable {ε α β : Type} {rendering : Rendering} {prune : Bool} {directory : Path}
  {inputs : List Path} {input other source target output : Path}
  {tree made shared own after : FileTree} {names : List String} {bytes : List UInt8}

namespace FileTree

/-! ## Views of two files -/

/-- Two trees have the same directories and the same things at two paths. -/
structure Alike (source target : Path) (shared own : FileTree) : Prop where
  directories : shared.SameDirectories own
  source : shared.find? source = own.find? source
  target : shared.find? target = own.find? target

/-- A file that is made at one path is never at the other path, in whichever tree. -/
def Apart (output other : Path) : Prop :=
  ∀ tree names, IsPlace tree output names → tree.locate other ≠ .ok names

/-- Output files with different paths are apart, and an output file is apart from all source
files but its own: a path that leads to an output file has its stem, so the path of the output
file that belongs to it is the same. -/
theorem apart_of_ne
    (different : rendering.outputOf directory input ≠ rendering.outputOf directory other) :
    Apart (rendering.outputOf directory input) other ∧
      Apart (rendering.outputOf directory input) (rendering.outputOf directory other) := by
  have fits := rendering.format.isExtension
  constructor
  · intro tree names place located
    have stems := place.outputStem_of_locate fits located
    exact different ((Path.ofOutput_inj fits).mpr stems.symm)
  · intro tree names place located
    have stems := place.outputStem_of_locate fits located
    have own := Path.outputStem_of_name? fits (Path.name?_ofOutput other directory fits)
    exact different ((Path.ofOutput_inj fits).mpr (stems.symm.trans own))

namespace Alike

theorem refl (source target : Path) (tree : FileTree) : Alike source target tree tree :=
  ⟨fun _ => Iff.rfl, rfl, rfl⟩

/-- A file that is put into both trees keeps them alike. -/
theorem insert (alike : Alike source target shared own)
    (noDirectory : own.entry? names ≠ some .directory) (bytes : List UInt8) :
    Alike source target (shared.insert names (.file bytes)) (own.insert names (.file bytes)) := by
  have sharedNoDirectory : shared.entry? names ≠ some .directory :=
    (alike.directories names).not.mpr noDirectory
  have kept {path : Path} (same : shared.find? path = own.find? path) :
      (shared.insert names (.file bytes)).find? path =
        (own.insert names (.file bytes)).find? path := by
    rw [find?_insert sharedNoDirectory, find?_insert noDirectory, same]
    exact if_congr alike.directories.locate rfl rfl
  constructor
  case directories =>
    intro here
    rw [sameDirectories_insert sharedNoDirectory, sameDirectories_insert noDirectory]
    exact alike.directories here
  case source => exact kept alike.source
  case target => exact kept alike.target

/-- A file that is put into one of the trees away from both paths keeps the trees alike. -/
theorem insert_elsewhere (alike : Alike source target shared own)
    (place : shared.IsPlace output names) (apartSource : Apart output source)
    (apartTarget : Apart output target) (bytes : List UInt8) :
    Alike source target (shared.insert names (.file bytes)) own := by
  have kept {path : Path} (apart : Apart output path) :
      (shared.insert names (.file bytes)).find? path = shared.find? path := by
    rw [find?_insert place.noDirectory, if_neg (apart shared names place)]
  constructor
  case directories =>
    intro here
    rw [sameDirectories_insert place.noDirectory]
    exact alike.directories here
  case source => exact (kept apartSource).trans alike.source
  case target => exact (kept apartTarget).trans alike.target

/-- From trees that are alike the source file is read alike. -/
theorem read (alike : Alike source target shared own) :
    (∃ bytes, shared.read source = .ok bytes ∧ own.read source = .ok bytes) ∨
      ∃ fault ownFault, shared.read source = .error fault ∧
        own.read source = .error ownFault := by
  have agree (bytes : List UInt8) :
      shared.read source = .ok bytes ↔ own.read source = .ok bytes := by
    rw [read_eq_ok_iff_find?, read_eq_ok_iff_find?, alike.source]
  cases found : shared.read source with
  | ok bytes => exact .inl ⟨bytes, rfl, (agree bytes).mp found⟩
  | error fault =>
      cases ownFound : own.read source with
      | ok bytes =>
          rw [(agree bytes).mpr ownFound] at found
          cases found
      | error ownFault => exact .inr ⟨fault, ownFault, rfl, rfl⟩

/-- Into trees that are alike the output file is written alike. -/
theorem write (alike : Alike source target shared own) (bytes : List UInt8) :
    (∃ after ownAfter, shared.write target bytes = .ok after ∧
        own.write target bytes = .ok ownAfter ∧ Alike source target after ownAfter) ∨
      ∃ fault ownFault, shared.write target bytes = .error fault ∧
        own.write target bytes = .error ownFault := by
  cases written : shared.write target bytes with
  | ok after =>
      obtain ⟨names, place, rfl⟩ := write_eq_ok_iff.mp written
      have ownPlace := alike.directories.isPlace.mp place
      exact .inl ⟨_, _, rfl, ownPlace.write bytes, alike.insert ownPlace.noDirectory bytes⟩
  | error fault =>
      cases ownWritten : own.write target bytes with
      | ok ownAfter =>
          obtain ⟨names, place, rfl⟩ := write_eq_ok_iff.mp ownWritten
          rw [(alike.directories.isPlace.mpr place).write bytes] at written
          cases written
      | error ownFault => exact .inr ⟨fault, ownFault, rfl, rfl⟩

end Alike

end FileTree

open FileTree

namespace Process

/-! ## One request -/

variable {process lone worker : Process (Except ε α)}

/-- A refused write leaves the tree as it is. -/
theorem run_step_write (path : Path) (bytes : List UInt8)
    (next : Except FileFault Unit → Process α) (tree : FileTree) :
    (write path bytes next).step.run tree =
      match tree.write path bytes with
      | .ok after => (next (.ok ()), after)
      | .error fault => (next (.error fault), tree) := by
  change (next ((commit (tree.write path bytes)).run tree).1,
    ((commit (tree.write path bytes)).run tree).2) = _
  cases tree.write path bytes <;> rfl

/-- A process on a tree that others change, and the same process on a tree of its own.  They may
fail for different causes: a path that leads through the output file of another process ends at
a file in the one tree, and is missing in the other. -/
structure Follows (source target : Path) (shared own : FileTree)
    (process lone : Process (Except ε α)) : Prop where
  alike : Alike source target shared own
  same : process = lone ∨
    ∃ cause loneCause, process = .done (.error cause) ∧ lone = .done (.error loneCause)
  confined : Confined source target process

/-- A confined process follows itself from trees that are alike. -/
theorem Confined.follows (confined : Confined source target process)
    (alike : Alike source target shared own) :
    Follows source target shared own process process :=
  ⟨alike, .inl rfl, confined⟩

theorem follows_of_refusal {next : Except FileFault β → Process (Except ε α)}
    (stops : ∀ fault, ∃ cause, next (.error fault) = .done (.error cause))
    (alike : Alike source target shared own) (fault ownFault : FileFault) :
    Follows source target shared own (next (.error fault)) (next (.error ownFault)) := by
  obtain ⟨cause, stopped⟩ := stops fault
  obtain ⟨loneCause, loneStopped⟩ := stops ownFault
  rw [stopped, loneStopped]
  exact ⟨alike, .inr ⟨cause, loneCause, rfl, rfl⟩, .done (.error cause)⟩

/-- With its own next request a process follows. -/
theorem Follows.step (follows : Follows source target shared own process lone) :
    Follows source target (process.step.run shared).2 (lone.step.run own).2
      (process.step.run shared).1 (lone.step.run own).1 := by
  obtain ⟨alike, rfl | ⟨cause, loneCause, rfl, rfl⟩, confined⟩ := follows
  · cases confined with
    | done result => exact (Confined.done result).follows alike
    | @read next goesOn stops =>
        change Follows source target shared own (next (shared.read source))
          (next (own.read source))
        rcases alike.read with ⟨bytes, found, ownFound⟩ | ⟨fault, ownFault, found, ownFound⟩
        · rw [found, ownFound]
          exact (goesOn (.ok bytes)).follows alike
        · rw [found, ownFound]
          exact follows_of_refusal stops alike fault ownFault
    | @write bytes next goesOn stops =>
        rw [run_step_write, run_step_write]
        rcases alike.write bytes with
          ⟨after, ownAfter, written, ownWritten, kept⟩ | ⟨fault, ownFault, written, ownWritten⟩
        · rw [written, ownWritten]
          exact (goesOn (.ok ())).follows kept
        · rw [written, ownWritten]
          exact follows_of_refusal stops alike fault ownFault
  · exact ⟨alike, .inr ⟨cause, loneCause, rfl, rfl⟩, confined⟩

/-- What a process that follows answers, and what it leaves at its two paths. -/
theorem Follows.perform (follows : Follows source target shared own process lone) :
    (process.perform.run shared).1.toOption = (lone.perform.run own).1.toOption ∧
      Alike source target (process.perform.run shared).2 (lone.perform.run own).2 := by
  induction follows.confined generalizing shared own lone with
  | done result =>
      obtain ⟨alike, rfl | ⟨cause, loneCause, same, rfl⟩, _⟩ := follows
      · exact ⟨rfl, alike⟩
      · cases same
        exact ⟨rfl, alike⟩
  | @read next _ _ ih =>
      rw [run_perform, run_perform lone]
      exact ih (shared.read source) follows.step
  | @write bytes next _ _ ih =>
      rw [run_perform, run_perform lone]
      exact ih ((commit (shared.write target bytes)).run shared).1 follows.step

/-! ## Requests of others -/

/-- A process that keeps to files which are apart from two paths. -/
def WorksElsewhere (source target : Path) (worker : Process (Except ε α)) : Prop :=
  ∃ input output, Confined input output worker ∧ Apart output source ∧ Apart output target

/-- A process that works elsewhere does so after its next request, and keeps trees alike. -/
theorem WorksElsewhere.step (elsewhere : WorksElsewhere source target worker)
    (alike : Alike source target shared own) :
    WorksElsewhere source target (worker.step.run shared).1 ∧
      Alike source target (worker.step.run shared).2 own := by
  obtain ⟨input, output, confined, apartSource, apartTarget⟩ := elsewhere
  cases confined with
  | done result => exact ⟨⟨input, output, .done result, apartSource, apartTarget⟩, alike⟩
  | @read next goesOn _ =>
      exact ⟨⟨input, output, goesOn (shared.read input), apartSource, apartTarget⟩, alike⟩
  | @write bytes next goesOn _ =>
      rw [run_step_write]
      cases written : shared.write output bytes with
      | ok after =>
          obtain ⟨names, place, rfl⟩ := write_eq_ok_iff.mp written
          exact ⟨⟨input, output, goesOn (.ok ()), apartSource, apartTarget⟩,
            alike.insert_elsewhere place apartSource apartTarget bytes⟩
      | error fault =>
          exact ⟨⟨input, output, goesOn (.error fault), apartSource, apartTarget⟩, alike⟩

theorem WorksElsewhere.perform (elsewhere : WorksElsewhere source target worker)
    (alike : Alike source target shared own) :
    Alike source target (worker.perform.run shared).2 own := by
  obtain ⟨input, output, confined, apartSource, apartTarget⟩ := elsewhere
  induction confined generalizing shared with
  | done result => exact alike
  | @read next goesOn stops ih =>
      rw [run_perform]
      exact ih (shared.read input) alike
  | @write bytes next goesOn stops ih =>
      have elsewhere : WorksElsewhere source target (.write output bytes next) :=
        ⟨input, output, .write goesOn stops, apartSource, apartTarget⟩
      rw [run_perform]
      exact ih ((commit (shared.write output bytes)).run shared).1 (elsewhere.step alike).2

/-! ## Processes in turns -/

variable {workers others : List (Process (Except ε α))} {turn position : Nat} {turns : List Nat}

theorem run_mapM_perform_cons (worker : Process α) (others : List (Process α))
    (tree : FileTree) :
    ((worker :: others).mapM perform).run tree =
      let first := worker.perform.run tree
      let rest := (others.mapM perform).run first.2
      (first.1 :: rest.1, rest.2) := by
  rw [List.mapM_cons]
  rfl

theorem run_atOnce_cons (turn : Nat) (turns : List Nat) (workers : List (Process α))
    (tree : FileTree) :
    (atOnce (turn :: turns) workers).run tree =
      match workers[turn]? with
      | some worker =>
          (atOnce turns (workers.set turn (worker.step.run tree).1)).run (worker.step.run tree).2
      | none => (atOnce turns workers).run tree := by
  rw [atOnce]
  cases workers[turn]? <;> rfl

/-- Each process has its answer. -/
theorem length_atOnce (schedule : List Nat) (workers : List (Process α)) (tree : FileTree) :
    ((atOnce schedule workers).run tree).1.length = workers.length := by
  induction schedule generalizing workers tree with
  | nil =>
      rw [atOnce]
      induction workers generalizing tree with
      | nil => rfl
      | cons worker others ih =>
          rw [run_mapM_perform_cons]
          exact congrArg Nat.succ (ih (worker.perform.run tree).2)
  | cons turn turns ih =>
      rw [run_atOnce_cons]
      split
      · rw [ih, List.length_set]
      · exact ih workers tree

theorem alike_of_others (alike : Alike source target shared own)
    (elsewhere : ∀ worker ∈ others, WorksElsewhere source target worker) :
    Alike source target ((others.mapM perform).run shared).2 own := by
  induction others generalizing shared with
  | nil => exact alike
  | cons worker others ih =>
      obtain ⟨first, rest⟩ := List.forall_mem_cons.mp elsewhere
      rw [run_mapM_perform_cons]
      exact ih (first.perform alike) rest

/-- One process among others that work elsewhere answers and leaves what it does alone. -/
def IsAsAlone (source target : Path) (position : Nat) (alone : Except ε α × FileTree)
    (finished : List (Except ε α) × FileTree) : Prop :=
  (∃ result, finished.1[position]? = some result ∧ result.toOption = alone.1.toOption) ∧
    Alike source target finished.2 alone.2

theorem isAsAlone_mapM_perform (here : workers[position]? = some process)
    (follows : Follows source target shared own process lone)
    (elsewhere : ∀ index worker, index ≠ position → workers[index]? = some worker →
      WorksElsewhere source target worker) :
    IsAsAlone source target position (lone.perform.run own)
      ((workers.mapM perform).run shared) := by
  induction workers generalizing position shared with
  | nil => simp at here
  | cons worker others ih =>
      rw [run_mapM_perform_cons]
      cases position with
      | zero =>
          obtain rfl : worker = process := by simpa using here
          obtain ⟨answers, alike⟩ := follows.perform
          refine ⟨⟨_, rfl, answers⟩, alike_of_others alike fun other member => ?_⟩
          obtain ⟨index, found⟩ := List.mem_iff_getElem?.mp member
          exact elsewhere (index + 1) other (Nat.succ_ne_zero index) found
      | succ position =>
          have first := elsewhere 0 worker (Nat.succ_ne_zero position).symm rfl
          apply ih here
          case follows => exact { follows with alike := first.perform follows.alike }
          case elsewhere =>
            intro index other apart found
            exact elsewhere (index + 1) other (by omega) found

/-- Whatever the turns are, one process among others that work elsewhere answers and leaves
what it does alone. -/
theorem isAsAlone_atOnce (schedule : List Nat) (here : workers[position]? = some process)
    (follows : Follows source target shared own process lone)
    (elsewhere : ∀ index worker, index ≠ position → workers[index]? = some worker →
      WorksElsewhere source target worker) :
    IsAsAlone source target position (lone.perform.run own)
      ((atOnce schedule workers).run shared) := by
  induction schedule generalizing workers process lone shared own with
  | nil =>
      rw [atOnce]
      exact isAsAlone_mapM_perform here follows elsewhere
  | cons turn turns ih =>
      rw [run_atOnce_cons]
      split
      · next worker found =>
        have inside : turn < workers.length := (List.getElem?_eq_some_iff.mp found).1
        by_cases ownTurn : turn = position
        · -- Both processes do the same request, each on its tree.
          subst ownTurn
          obtain rfl : worker = process := Option.some_inj.mp (found.symm.trans here)
          rw [run_perform lone]
          apply ih
          case here => exact List.getElem?_set_self inside
          case follows => exact follows.step
          case elsewhere =>
            intro index other apart listed
            rw [List.getElem?_set_ne apart.symm] at listed
            exact elsewhere index other apart listed
        · -- Only the shared tree changes, away from both paths.
          obtain ⟨keepsAway, alike⟩ := (elsewhere turn worker ownTurn found).step follows.alike
          apply ih
          case here => rwa [List.getElem?_set_ne ownTurn]
          case follows => exact { follows with alike := alike }
          case elsewhere =>
            intro index other apart listed
            by_cases same : turn = index
            · subst same
              rw [List.getElem?_set_self inside, Option.some_inj] at listed
              exact listed ▸ keepsAway
            · rw [List.getElem?_set_ne same] at listed
              exact elsewhere index other apart listed
      · exact ih here follows elsewhere

/-- If output files have different paths, the process of each source file answers and leaves
what it does alone. -/
theorem isAsAlone_extractInTurns (schedule : List Nat) (prune : Bool)
    (distinct : (inputs.map (rendering.outputOf directory)).Nodup)
    (listed : inputs[position]? = some input) (tree : FileTree) :
    IsAsAlone input (rendering.outputOf directory input) position
      (on (extractFile rendering prune input directory) tree)
      ((extractInTurns schedule rendering prune inputs directory).run tree) := by
  have alone : (extractFile (m := Process) rendering prune input directory).run.perform.run tree =
      on (extractFile rendering prune input directory) tree :=
    congrArg (on · tree) (effects_extractFile rendering prune input directory)
  rw [extractInTurns, ← alone]
  apply isAsAlone_atOnce schedule
  case here => rw [List.getElem?_map, listed, Option.map_some]
  case follows => exact (Confined.extractFile rendering prune input directory).follows (.refl ..)
  case elsewhere =>
    intro index worker elsewhere found
    rw [List.getElem?_map, Option.map_eq_some_iff] at found
    obtain ⟨other, otherListed, rfl⟩ := found
    refine ⟨other, _, Confined.extractFile rendering prune other directory, ?_⟩
    apply apart_of_ne
    intro same
    have inside : index < (inputs.map (rendering.outputOf directory)).length := by
      rw [List.length_map]
      exact (List.getElem?_eq_some_iff.mp otherListed).1
    apply elsewhere ((List.getElem?_inj inside distinct).mp ?_)
    rw [List.getElem?_map, List.getElem?_map, otherListed, listed, Option.map_some,
      Option.map_some, same]

end Process

end ProgramGraph
