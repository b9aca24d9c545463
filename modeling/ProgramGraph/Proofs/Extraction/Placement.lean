import ProgramGraph.Proofs.Extraction.Keyless
import ProgramGraph.Proofs.Graph.SameRecord

/-!
# Where elements lie does not matter

A syntax key is made of an address and of a sort, and both can be read off it, as long as the
address has no more than 61 bits.  So elements that lie at different places have different keys,
and an extraction is then the same, but for the keys, as one without keys.  Two placements of
the same source lead to the same record and to the same types.
-/

namespace ProgramGraph

open Function Source

/-! ## Keys of places -/

namespace SyntaxKey

variable {address other sort otherSort : Nat}

/-- The addresses that a key has room for. -/
def addressBound : Nat :=
  2 ^ 61

theorem of_eq (small : address < addressBound) (sortSmall : sort ≤ documentSort) :
    of address sort = address * 8 + sort := by
  have room : address * 8 < 2 ^ 64 := by
    rw [addressBound] at small
    omega
  have low : sort < 2 ^ 3 := Nat.lt_of_le_of_lt sortSmall (by decide)
  have addressFits : address % 2 ^ 64 = address := Nat.mod_eq_of_lt (by omega)
  have sortFits : sort % 2 ^ 64 = sort := Nat.mod_eq_of_lt (by omega)
  calc
    of address sort = (address <<< 3) % 2 ^ 64 ||| sort := by
      rw [of, UInt64.toNat_or, UInt64.toNat_shiftLeft, UInt64.toNat_ofNat', UInt64.toNat_ofNat',
        addressFits, sortFits]
      rfl
    _ = address <<< 3 ||| sort := by
      rw [Nat.shiftLeft_eq, Nat.mod_eq_of_lt room]
    _ = address * 8 + sort := by
      rw [← Nat.shiftLeft_add_eq_or_of_lt low, Nat.shiftLeft_eq]

/-- A key tells its address and its sort. -/
theorem of_injective (small : address < addressBound) (otherSmall : other < addressBound)
    (sortSmall : sort ≤ documentSort) (otherSortSmall : otherSort ≤ documentSort)
    (same : of address sort = of other otherSort) : address = other ∧ sort = otherSort := by
  rw [of_eq small sortSmall, of_eq otherSmall otherSortSmall] at same
  have sums : address * 8 + sort = other * 8 + otherSort := same
  rw [documentSort] at sortSmall otherSortSmall
  omega

end SyntaxKey

/-! ## Placements -/

namespace Outline

mutual

theorem sort_le : (outline : Outline) → ∀ sort ∈ outline.sorts, sort ≤ SyntaxKey.documentSort
  | element form _ attributes children => by
      have own : SyntaxKey.sortOf form ≤ SyntaxKey.documentSort := by
        cases form <;> simp [SyntaxKey.sortOf, SyntaxKey.documentSort]
      rw [sorts]
      exact List.forall_mem_cons.mpr
        ⟨own, List.forall_mem_append.mpr ⟨sortAll_le attributes, sortAll_le children⟩⟩
  | name _ => by
      rw [sorts]
      exact List.forall_mem_nil _
  | document _ _ => by
      rw [sorts]
      exact List.forall_mem_singleton.mpr (Nat.le_refl _)
  | ascription attributes pattern type => by
      rw [sorts]
      exact List.forall_mem_append.mpr
        ⟨sortAll_le attributes, List.forall_mem_append.mpr ⟨sort_le pattern, sort_le type⟩⟩

theorem sortAll_le :
    (outlines : List Outline) → ∀ sort ∈ sortsAll outlines, sort ≤ SyntaxKey.documentSort
  | [] => List.forall_mem_nil _
  | outline :: outlines => by
      rw [sortsAll]
      exact List.forall_mem_append.mpr ⟨sort_le outline, sortAll_le outlines⟩

end

end Outline

namespace Placement

variable {placement : Placement} {source : String}

/-- The addresses and sorts of a file and of its elements. -/
def places (placement : Placement) (outlines : List Outline) : List (Nat × Nat) :=
  placement.placesFrom 0 (Outline.fileSorts outlines)

/-- A placement puts the elements of a source to addresses that a key has room for, and those
of one sort to different addresses. -/
def Lays (placement : Placement) (source : String) : Prop :=
  ∀ outlines, Extraction.outlineOf (.ofString source) = .ok outlines →
    (placement.places outlines).Nodup ∧
      ∀ place ∈ placement.places outlines, place.1 < SyntaxKey.addressBound

/-- Whether a placement lays the elements of a source can be computed. -/
theorem lays_of_all
    (all : (Extraction.outlineOf (.ofString source)).toOption.all fun outlines =>
      decide ((placement.places outlines).Nodup ∧
        ∀ place ∈ placement.places outlines, place.1 < SyntaxKey.addressBound)) :
    placement.Lays source := by
  intro outlines parsed
  rw [parsed] at all
  exact of_decide_eq_true all

theorem sort_le_of_mem_places {outlines : List Outline} {place : Nat × Nat}
    (member : place ∈ placement.places outlines) : place.2 ≤ SyntaxKey.documentSort := by
  obtain ⟨⟨sort, visited⟩, listed, rfl⟩ := List.mem_map.mp member
  rcases List.mem_cons.mp (List.fst_mem_of_mem_zipIdx listed) with isFile | isElement
  · obtain rfl : sort = SyntaxKey.fileSort := isFile
    exact Nat.zero_le _
  · exact Outline.sortAll_le outlines sort isElement

/-- Elements at different places have different keys. -/
theorem Lays.separates (lays : placement.Lays source) : placement.Separates source := by
  intro outlines parsed
  obtain ⟨different, bounded⟩ := lays outlines parsed
  rw [keys, keysFrom]
  refine List.Nodup.map_on ?_ different
  intro place member other otherMember same
  obtain ⟨address, sort⟩ := SyntaxKey.of_injective (bounded place member)
    (bounded other otherMember) (sort_le_of_mem_places member)
    (sort_le_of_mem_places otherMember) same
  exact Prod.ext address sort

end Placement

/-! ## Extractions -/

namespace Extraction

variable {placement other : Placement} {fileName source : String}

/-- What an extraction shows: its record and its types. -/
def shown (extraction : Extraction) : Record × TypeTable :=
  (extraction.graph.toRecord, extraction.types)

theorem shown_pruned {left right : Extraction} (leftInvariant : left.graph.Invariant)
    (rightInvariant : right.graph.Invariant) (same : left.unkeyed = right.unkeyed)
    (prune : Bool) : (left.pruned prune).shown = (right.pruned prune).shown := by
  have types : left.unkeyed.types = right.unkeyed.types := by rw [same]
  have records : left.unkeyed.graph.toRecord = right.unkeyed.graph.toRecord := by rw [same]
  cases prune with
  | false => exact Prod.ext records types
  | true =>
      have alike : Graph.SameRecord right.graph left.graph :=
        ⟨rightInvariant, leftInvariant, records⟩
      exact Prod.ext alike.prune.same.toRecord types

/-- Under two placements a source is refused for the same reason or leads to the same record
and types. -/
theorem shown_run (separates : placement.Separates source) (otherSeparates : other.Separates source)
    (prune : Bool) (fileName : String) :
    (run placement prune fileName source).map shown =
      (run other prune fileName source).map shown := by
  cases parsed : outlineOf (.ofString source) with
  | error cause => rw [run_of_no_outline _ _ _ parsed, run_of_no_outline _ _ _ parsed]
  | ok outlines =>
      cases cut : lexemesOf (.ofString source) with
      | error cause =>
          rw [run_of_no_lexemes _ _ _ parsed cut, run_of_no_lexemes _ _ _ parsed cut]
      | ok lexemes =>
          obtain ⟨left, leftAssembled, _⟩ :=
            exists_assemble_eq_ok (.ofString source) placement fileName outlines lexemes
          obtain ⟨right, rightAssembled, _⟩ :=
            exists_assemble_eq_ok (.ofString source) other fileName outlines lexemes
          rw [run_of_assemble prune parsed cut leftAssembled,
            run_of_assemble prune parsed cut rightAssembled]
          have same : left.unkeyed = right.unkeyed :=
            (unkeyed_of_assemble (separates outlines parsed) leftAssembled).trans
              (unkeyed_of_assemble (otherSeparates outlines parsed) rightAssembled).symm
          exact congrArg Except.ok (shown_pruned (reachable_assemble leftAssembled).invariant
            (reachable_assemble rightAssembled).invariant same prune)

end Extraction

/-- The values of syntax keys do not matter.  A history gets the same answers and leads to a
graph with the same answers, record and exports if all keys are renamed, in the graph that it
begins with as well if that has any.  Keys are made such that different places have different keys, and the record and
the types of a source are the same wherever its elements lie. -/
theorem results_independent_of_keys :
    (∀ rename : SyntaxKey → SyntaxKey, Injective rename →
      ∀ (graph : Graph) (history : List Operation),
        SameResults rename graph (graph.renameKeys rename) history
          (history.map (Operation.renameKeys rename)) ∧
        (graph.unkeyed = graph →
          SameResults rename graph graph history
            (history.map (Operation.renameKeys rename)))) ∧
    (∀ address other sort otherSort : Nat, address < 2 ^ 61 → other < 2 ^ 61 →
      sort ≤ 6 → otherSort ≤ 6 → SyntaxKey.of address sort = SyntaxKey.of other otherSort →
        address = other ∧ sort = otherSort) ∧
    ∀ (placement other : Placement) (source : String), placement.Lays source →
      other.Lays source → ∀ (prune : Bool) (fileName : String),
        (Extraction.run placement prune fileName source).map Extraction.shown =
          (Extraction.run other prune fileName source).map Extraction.shown := by
  refine ⟨?_, ?_, ?_⟩
  · intro rename injective graph history
    refine ⟨sameResults_renameKeys injective graph history, ?_⟩
    intro keyless
    have results := sameResults_renameKeys injective graph history
    rwa [Graph.renameKeys_of_unkeyed keyless] at results
  · intro address other sort otherSort small otherSmall sortSmall otherSortSmall
    exact SyntaxKey.of_injective small otherSmall sortSmall otherSortSmall
  · intro placement other source lays otherLays prune fileName
    exact Extraction.shown_run lays.separates otherLays.separates prune fileName

/-- A function with a pattern that has a type. -/
def typedLet : String := "fn f() \x7b let x: u8 = y; \x7d"

/-- A graph whose keys are renamed, an empty graph that has none, the last address with two
sorts, and a source whose elements are laid upwards and downwards. -/
theorem results_of_renamed_keys :
    SameResults Nat.succ Graph.sample (Graph.sample.renameKeys Nat.succ)
        [.create .astElement "g" 0 1 10, .removeNode 0, .create .astElement "g" 0 1 10]
        [.create .astElement "g" 0 1 11, .removeNode 0, .create .astElement "g" 0 1 11] ∧
      SameResults Nat.succ (.empty "a.rs" {}) (.empty "a.rs" {})
        [.create .astRoot "" 0 1 10, .create .astRoot "" 0 1 10]
        [.create .astRoot "" 0 1 11, .create .astRoot "" 0 1 11] ∧
      SyntaxKey.of (2 ^ 61 - 1) 6 ≠ SyntaxKey.of (2 ^ 61 - 1) 0 ∧
      (Extraction.run Extraction.highPlacement true "a.rs" typedLet).map Extraction.shown =
        (Extraction.run (fun visited => 1000 - visited) true "a.rs" typedLet).map
          Extraction.shown := by
  have upwards : Extraction.highPlacement.Lays typedLet :=
    Placement.lays_of_all (by decide +kernel)
  have downwards : Placement.Lays (fun visited => 1000 - visited) typedLet :=
    Placement.lays_of_all (by decide +kernel)
  obtain ⟨renamed, injective, laid⟩ := results_independent_of_keys
  refine ⟨?_, ?_, ?_, laid _ _ _ upwards downwards true "a.rs"⟩
  · exact (renamed Nat.succ Nat.succ_injective _ _).1
  · exact (renamed Nat.succ Nat.succ_injective _ _).2 rfl
  · intro same
    obtain ⟨_, sorts⟩ := injective _ _ _ _ (by decide) (by decide) (by decide) (by decide) same
    cases sorts

end ProgramGraph
