import Mathlib.Data.List.Basic
import Mathlib.Data.List.Induction
import ProgramGraph.Files.Tree
import ProgramGraph.Proofs.Path

/-!
# Laws of file trees

A file can be written at a path that leads through directories to something that is no
directory.  Writing a file changes what its names lead to and nothing else: the paths
that led somewhere lead to the same names, and every other file has the bytes it had.  A path
that leads to a file ends in the name of the file.
-/

namespace ProgramGraph.FileTree

variable {tree after : FileTree} {path : Path} {names found here : List String}
  {bytes contents : List UInt8}

/-! ## Entries -/

theorem entry?_insert (named : names ≠ []) (entry : FileEntry) (other : List String) :
    FileTree.entry? (tree.insert names entry) other =
      if other = names then some entry else tree.entry? other := by
  have find : ((tree.insert names entry).entries.find? (·.1 == other)).map (·.2) =
      if other = names then some entry else (tree.entries.find? (·.1 == other)).map (·.2) := by
    by_cases same : other = names
    · subst same
      have gone : (tree.entries.filter (·.1 != other)).find? (·.1 == other) = none := by
        simp [List.find?_eq_none]
      simp [insert, List.find?_append, gone]
    · have kept : (tree.entries.filter (·.1 != names)).find? (·.1 == other) =
          tree.entries.find? (·.1 == other) := by
        rw [List.find?_filter]
        congr 1
        funext stored
        by_cases here : stored.1 = other <;> simp [here, same]
      simp [insert, List.find?_append, kept, same, Ne.symm same]
  by_cases root : other = []
  · simp [root, entry?, named.symm]
  · simp [root, entry?, find]

/-- An entry that is put in twice is there once. -/
theorem insert_insert (first second : FileEntry) :
    (tree.insert names first).insert names second = tree.insert names second := by
  simp [insert, List.filter_append]

theorem ne_nil_of_noDirectory (noDirectory : tree.entry? names ≠ some .directory) : names ≠ [] := by
  rintro rfl
  exact noDirectory rfl

/-- Two trees have the same directories. -/
def SameDirectories (tree other : FileTree) : Prop :=
  ∀ names, tree.entry? names = some .directory ↔ other.entry? names = some .directory

/-- Where no directory is, a file may be put without making or losing one. -/
theorem sameDirectories_insert (noDirectory : tree.entry? names ≠ some .directory) :
    (tree.insert names (.file bytes)).SameDirectories tree := by
  intro here
  rw [entry?_insert (ne_nil_of_noDirectory noDirectory)]
  split
  · next same =>
    subst same
    simp [noDirectory]
  · rfl

/-! ## Following paths -/

theorem follow_cons_eq_ok_iff {piece : String} {pieces : List String} :
    tree.follow here (piece :: pieces) = .ok found ↔
      tree.entry? here = some .directory ∧ tree.follow (step here piece) pieces = .ok found := by
  rw [follow]
  split
  · next open' => simp [open']
  · next file => simp [file]
  · next nothing => simp [nothing]

theorem locate_eq_ok_iff :
    tree.locate path = .ok names ↔ path.text ≠ "" ∧ tree.follow [] path.pieces = .ok names := by
  rw [locate]
  by_cases unnamed : path.text = "" <;> simp [unnamed]

/-- Only directories are passed through on the way. -/
theorem SameDirectories.follow {other : FileTree} (same : tree.SameDirectories other)
    (pieces : List String) :
    tree.follow here pieces = .ok found ↔ other.follow here pieces = .ok found := by
  induction pieces generalizing here with
  | nil => rfl
  | cons piece pieces ih =>
      rw [follow_cons_eq_ok_iff, follow_cons_eq_ok_iff, same here, ih]

theorem SameDirectories.locate {other : FileTree} (same : tree.SameDirectories other) :
    tree.locate path = .ok names ↔ other.locate path = .ok names := by
  rw [locate_eq_ok_iff, locate_eq_ok_iff, same.follow]

/-- A new file makes no difference to where paths lead. -/
theorem locate_insert (noDirectory : tree.entry? names ≠ some .directory) :
    (tree.insert names (.file bytes)).locate path = .ok found ↔
      tree.locate path = .ok found :=
  (sameDirectories_insert noDirectory).locate

/-! ## Reading and writing -/

/-- A file can be put at a path: the path leads to names where no directory is, and does not
end like the path of a directory. -/
structure IsPlace (tree : FileTree) (path : Path) (names : List String) : Prop where
  located : tree.locate path = .ok names
  noDirectory : tree.entry? names ≠ some .directory
  noSlash : path.pieces.getLast? ≠ some ""

theorem read_eq_ok_iff :
    tree.read path = .ok bytes ↔
      ∃ names, tree.locate path = .ok names ∧ tree.entry? names = some (.file bytes) := by
  rw [read]
  cases located : tree.locate path with
  | error fault => simp [bind, Except.bind]
  | ok names =>
      cases stored : tree.entry? names with
      | none => simp [bind, Except.bind, stored, throw, throwThe, MonadExceptOf.throw]
      | some entry =>
          cases entry with
          | directory => simp [bind, Except.bind, stored, throw, throwThe, MonadExceptOf.throw]
          | file contents => simp [bind, Except.bind, stored, pure, Except.pure]

/-- A path loses pieces together with the slashes at its end, and no pieces otherwise. -/
theorem trimmed_pieces (pieces : List String) :
    if pieces.getLast? = some "" then
      (pieces.reverse.dropWhile (·.isEmpty)).reverse.length < pieces.length
    else (pieces.reverse.dropWhile (·.isEmpty)).reverse = pieces := by
  rcases pieces.eq_nil_or_concat with rfl | ⟨front, last, rfl⟩
  · rfl
  · by_cases slash : last = ""
    · have shorter : (front.reverse.dropWhile (·.isEmpty)).length ≤ front.reverse.length :=
        (List.dropWhile_sublist _).length_le
      simpa [slash] using Nat.lt_succ_of_le shorter
    · simp [slash]

theorem isPlace_iff :
    tree.IsPlace path names ↔ path.text ≠ "" ∧ tree.follow [] path.pieces = .ok names ∧
      tree.entry? names ≠ some .directory ∧ path.pieces.getLast? ≠ some "" := by
  constructor
  · rintro ⟨located, noDirectory, noSlash⟩
    obtain ⟨named, followed⟩ := locate_eq_ok_iff.mp located
    exact ⟨named, followed, noDirectory, noSlash⟩
  · rintro ⟨named, followed, noDirectory, noSlash⟩
    exact ⟨locate_eq_ok_iff.mpr ⟨named, followed⟩, noDirectory, noSlash⟩

theorem write_eq_ok_iff :
    tree.write path bytes = .ok after ↔
      ∃ names, tree.IsPlace path names ∧ after = tree.insert names (.file bytes) := by
  have trimmed := trimmed_pieces path.pieces
  simp only [isPlace_iff]
  rw [write]
  by_cases unnamed : path.text = ""
  · simp [unnamed, bind, Except.bind]
  by_cases slash : path.pieces.getLast? = some ""
  · rw [if_pos slash] at trimmed
    simp only [trimmed, slash, decide_true, Bool.true_or, if_true]
    cases tree.follow [] _ <;>
      simp [unnamed, bind, Except.bind, throw, throwThe, MonadExceptOf.throw]
  · rw [if_neg slash] at trimmed
    simp only [trimmed, Nat.lt_irrefl, decide_false, Bool.false_or, beq_iff_eq]
    cases followed : tree.follow [] path.pieces with
    | error fault => simp [unnamed, bind, Except.bind]
    | ok names =>
        by_cases directory : tree.entry? names = some .directory
        · simp [unnamed, slash, directory, bind, Except.bind, throw, throwThe, MonadExceptOf.throw]
        · simp [unnamed, slash, directory, bind, Except.bind, pure, Except.pure]
          exact eq_comm

theorem IsPlace.write (place : tree.IsPlace path names) (bytes : List UInt8) :
    tree.write path bytes = .ok (tree.insert names (.file bytes)) :=
  write_eq_ok_iff.mpr ⟨names, place, rfl⟩

theorem SameDirectories.isPlace {other : FileTree} (same : tree.SameDirectories other) :
    tree.IsPlace path names ↔ other.IsPlace path names := by
  rw [isPlace_iff, isPlace_iff, same.follow, Ne, Ne, same names]

/-- Files that are put into a tree make and take no places. -/
theorem isPlace_insert (noDirectory : tree.entry? names ≠ some .directory) :
    (tree.insert names (.file bytes)).IsPlace path found ↔ tree.IsPlace path found :=
  (sameDirectories_insert noDirectory).isPlace

/-- A new file has its bytes, at whichever path, and all other files have theirs. -/
theorem read_insert_eq_ok_iff (noDirectory : tree.entry? names ≠ some .directory) :
    (tree.insert names (.file bytes)).read path = .ok contents ↔
      if tree.locate path = .ok names then contents = bytes
      else tree.read path = .ok contents := by
  simp only [read_eq_ok_iff, locate_insert noDirectory,
    entry?_insert (ne_nil_of_noDirectory noDirectory)]
  split
  · next here => simp [here, eq_comm]
  · next elsewhere =>
    refine exists_congr fun found => and_congr_right fun located => ?_
    rw [if_neg]
    rintro rfl
    exact elsewhere located

/-- What was written at a path is read from it. -/
theorem IsPlace.read_insert (place : tree.IsPlace path names) :
    (tree.insert names (.file bytes)).read path = .ok bytes := by
  rw [read_insert_eq_ok_iff place.noDirectory, if_pos place.located]

/-! ## What is at a path -/

/-- What is at a path, if the path leads anywhere. -/
def find? (tree : FileTree) (path : Path) : Option FileEntry :=
  (tree.locate path).toOption.bind tree.entry?

theorem find?_of_locate (located : tree.locate path = .ok names) :
    tree.find? path = tree.entry? names := by
  rw [find?, located]
  rfl

theorem find?_eq_some_iff {entry : FileEntry} :
    tree.find? path = some entry ↔
      ∃ names, tree.locate path = .ok names ∧ tree.entry? names = some entry := by
  rw [find?]
  cases tree.locate path <;> simp [Except.toOption]

theorem read_eq_ok_iff_find? :
    tree.read path = .ok bytes ↔ tree.find? path = some (.file bytes) := by
  rw [read_eq_ok_iff, find?_eq_some_iff]

/-- A new file is at the paths that lead to its names, and all other paths have what they had. -/
theorem find?_insert (noDirectory : tree.entry? names ≠ some .directory) :
    (tree.insert names (.file bytes)).find? path =
      if tree.locate path = .ok names then some (.file bytes) else tree.find? path := by
  have located (found : List String) :
      (tree.insert names (.file bytes)).locate path = .ok found ↔
        tree.locate path = .ok found := locate_insert noDirectory
  cases old : tree.locate path with
  | ok found =>
      rw [find?_of_locate ((located found).mpr old), find?_of_locate old,
        entry?_insert (ne_nil_of_noDirectory noDirectory)]
      simp only [Except.ok.injEq]
  | error fault =>
      have nowhere : tree.find? path = none := by rw [find?, old]; rfl
      rw [nowhere, if_neg (by simp), Option.eq_none_iff_forall_ne_some]
      intro entry present
      obtain ⟨found, new, _⟩ := find?_eq_some_iff.mp present
      rw [located, old] at new
      cases new

/-! ## Names of files -/

/-- A path with one piece more leads on from a directory. -/
theorem follow_concat_eq_ok_iff {pieces : List String} {piece : String} :
    tree.follow here (pieces ++ [piece]) = .ok found ↔
      ∃ middle, tree.follow here pieces = .ok middle ∧
        tree.entry? middle = some .directory ∧ step middle piece = found := by
  induction pieces generalizing here with
  | nil =>
      rw [List.nil_append, follow_cons_eq_ok_iff]
      simp [follow]
  | cons first pieces ih =>
      simp only [List.cons_append, follow_cons_eq_ok_iff, ih, and_assoc, exists_and_left]

/-- There are directories only on the way to what a path leads to. -/
theorem isDirectory_of_prefix {pieces front : List String}
    (followed : tree.follow [] pieces = .ok found) (leads : front <+: found)
    (proper : front ≠ found) : tree.entry? front = some .directory := by
  induction pieces using List.reverseRecOn generalizing found front with
  | nil =>
      cases followed
      exact absurd (List.prefix_nil.mp leads) proper
  | append_singleton pieces piece ih =>
      obtain ⟨middle, reached, open', rfl⟩ := follow_concat_eq_ok_iff.mp followed
      have earlier : front <+: middle := by
        rw [step] at leads proper
        split at leads
        · exact leads
        · split at leads
          · exact leads.trans (List.dropLast_prefix middle)
          · next active up =>
            rw [if_neg active, if_neg up] at proper
            exact (List.prefix_concat_iff.mp leads).resolve_left proper
      by_cases here : front = middle
      · exact here ▸ open'
      · exact ih reached earlier here

/-- A path that leads to a file, or to where one can be made, ends in the name of the file. -/
theorem name?_of_locate (located : tree.locate path = .ok names)
    (noDirectory : tree.entry? names ≠ some .directory) : path.name? = names.getLast? := by
  have followed := (locate_eq_ok_iff.mp located).2
  have active : path.name? =
      ((path.pieces.filter (!Path.isIdle ·)).getLast?).filter (· != "..") := rfl
  rcases path.pieces.eq_nil_or_concat' with empty | ⟨front, last, pieces⟩
  · rw [empty] at followed
    cases followed
    exact absurd rfl noDirectory
  · rw [pieces] at followed
    obtain ⟨middle, reached, open', rfl⟩ := follow_concat_eq_ok_iff.mp followed
    rw [active, pieces]
    rw [step] at noDirectory ⊢
    split at noDirectory
    · exact absurd open' noDirectory
    · split at noDirectory
      · next up =>
        refine absurd ?_ noDirectory
        by_cases root : middle.dropLast = middle
        · rwa [root]
        · exact isDirectory_of_prefix reached (List.dropLast_prefix middle) root
      · next busy up =>
        rw [beq_iff_eq] at up
        simp [busy, up, Option.filter]

/-! ## Places of output files -/

theorem names_of_follow {pieces : List String} (followed : tree.follow here pieces = .ok names) :
    names = pieces.foldl step here := by
  induction pieces generalizing here with
  | nil =>
      cases followed
      rfl
  | cons piece pieces ih => exact ih (follow_cons_eq_ok_iff.mp followed).2

/-- Pieces that lead nowhere can be left out. -/
theorem foldl_step_filter (pieces : List String) (here : List String) :
    (pieces.filter (!Path.isIdle ·)).foldl step here = pieces.foldl step here := by
  induction pieces generalizing here with
  | nil => rfl
  | cons piece pieces ih =>
      by_cases idle : Path.isIdle piece
      · simp [idle, step, ih]
      · simp [idle, ih]

/-- The output files of a directory have their places in it, under their names. -/
theorem IsPlace.names_ofOutput {input directory : Path} {extension : String}
    (fits : Path.IsExtension extension)
    (place : tree.IsPlace (Path.ofOutput input directory extension) names) :
    names = (Path.activePieces directory.text.toList).foldl step [] ++
      [Path.outputName input extension] := by
  have followed := (locate_eq_ok_iff.mp place.located).2
  have active := Path.activePieces_ofOutput input directory fits
  have up : Path.outputName input extension ≠ ".." := Path.outputName_ne input fits (by decide)
  have idle : Path.isIdle (Path.outputName input extension) = false := by
    simp [Path.isIdle, Path.outputName_ne input fits]
  calc names
    _ = (Path.ofOutput input directory extension).pieces.foldl step [] := names_of_follow followed
    _ = (Path.activePieces (Path.ofOutput input directory extension).text.toList).foldl step [] :=
        (foldl_step_filter _ _).symm
    _ = step ((Path.activePieces directory.text.toList).foldl step [])
          (Path.outputName input extension) := by rw [active, List.foldl_append]; rfl
    _ = _ := by simp [step, idle, up]

/-- A path that leads to where an output file is made, or can be, has the same stem. -/
theorem IsPlace.outputStem_of_locate {input directory : Path} {extension : String}
    (fits : Path.IsExtension extension)
    (place : tree.IsPlace (Path.ofOutput input directory extension) names)
    (located : tree.locate path = .ok names) : path.outputStem = input.outputStem := by
  apply Path.outputStem_of_name? fits
  rw [name?_of_locate located place.noDirectory, place.names_ofOutput fits,
    List.getLast?_concat]

end ProgramGraph.FileTree
