import ProgramGraph.Proofs.Extraction.Coordinates
import ProgramGraph.Proofs.Extraction.Links

/-!
# Owners of identifiers

Each identifier belongs to one element at most, with one exception: a name that the next element
begins with again belongs to both, to the outer element and to the one below it.  The field of a
struct that is also its value is such a name, and so is the lifetime of a borrowed receiver.
-/

namespace ProgramGraph

open Relation Source

/-! ## Names that are repeated -/

namespace Outline

mutual

/-- The names in an outline that the next element repeats. -/
def repeated : Outline → List Span
  | element _ _ attributes children => repeatedAll attributes ++ repeatedAll children
  | name _ => []
  | document _ _ => []
  | ascription attributes pattern type =>
      repeatedAll attributes ++ (pattern.repeated ++ type.repeated)

/-- The names in outlines that the next element repeats. -/
def repeatedAll : List Outline → List Span
  | [] => []
  | outline :: outlines =>
      (if outline.isRepeatedBy outlines then outline.names else outline.repeated) ++
        repeatedAll outlines

end

variable {span : Span}

mutual

/-- A name that is repeated is shown. -/
theorem mem_names_of_mem_repeated :
    (outline : Outline) → span ∈ outline.repeated → span ∈ outline.names
  | element _ _ attributes children, member => by
      rw [names, List.mem_append]
      exact (List.mem_append.mp member).imp (mem_namesAll_of_mem_repeatedAll attributes)
        (mem_namesAll_of_mem_repeatedAll children)
  | ascription attributes pattern type, member => by
      rw [names, List.mem_append, List.mem_append]
      apply (List.mem_append.mp member).imp (mem_namesAll_of_mem_repeatedAll attributes)
      intro inBoth
      exact (List.mem_append.mp inBoth).imp (mem_names_of_mem_repeated pattern)
        (mem_names_of_mem_repeated type)

theorem mem_namesAll_of_mem_repeatedAll :
    (outlines : List Outline) → span ∈ repeatedAll outlines → span ∈ namesAll outlines
  | outline :: outlines, member => by
      rw [namesAll, List.mem_append]
      apply (List.mem_append.mp member).imp _ (mem_namesAll_of_mem_repeatedAll outlines)
      intro here
      split at here
      · exact here
      · exact mem_names_of_mem_repeated outline here

end

/-- A name that the next element repeats is not repeated in what follows, if it counts once. -/
theorem not_mem_repeatedAll_of_isRepeatedBy {outlines : List Outline}
    (repeated : (name span).isRepeatedBy outlines)
    (once : tallyAll (.name span) outlines ≤ 1) : span ∉ repeatedAll outlines := by
  unfold isRepeatedBy at repeated
  split at repeated
  · next next rest same =>
    cases same
    unfold repeats at repeated
    split at repeated
    · next form place first children =>
      have counted := tally_of_repeats form place repeated
      rcases counted with ⟨rfl, counted⟩
      rw [tallyAll_cons_of_single rfl, counted] at once
      have notInside : 0 ≥ tallyAll (.name first) children := by omega
      have notBehind : 0 ≥ tallyAll (.name first) rest := by omega
      intro member
      rcases List.mem_append.mp member with inElement | behind
      · have inChildren : first ∈ repeatedAll (name first :: children) := inElement
        rw [repeatedAll, List.mem_append] at inChildren
        rcases inChildren with here | inside
        · split at here
          · next again => exact Nat.not_lt_of_le notInside (tallyAll_pos_of_isRepeatedBy again)
          · cases here
        · have shown := mem_namesAll_of_mem_repeatedAll children inside
          exact Nat.not_lt_of_le notInside ((tallyAll_pos_iff_mem_namesAll children).mpr shown)
      · have shown := mem_namesAll_of_mem_repeatedAll rest behind
        exact Nat.not_lt_of_le notBehind ((tallyAll_pos_iff_mem_namesAll rest).mpr shown)
    · cases repeated
  · cases repeated

end Outline

/-! ## Owners in a walk -/

namespace Walk

variable {source : SourceText} {elements more : List Placed} {names others repeats : List Span}
  {span : Span} {owners : List NodeId}

/-- To whom a name belongs: to no one if it is not met; else to one element, or if it is repeated
to an element and to one directly below it. -/
inductive Owned (elements : List Placed) (names repeats : List Span) (span : Span) :
    List NodeId → Prop
  | none (absent : span ∉ names) (single : span ∉ repeats) : Owned elements names repeats span []
  | one (owner : NodeId) (shown : span ∈ names) (single : span ∉ repeats) :
      Owned elements names repeats span [owner]
  | two (element : Placed) (member : element ∈ elements) (shown : span ∈ names)
      (twice : span ∈ repeats) : Owned elements names repeats span [element.owner, element.id]

namespace Owned

theorem eq_nil (owned : Owned elements names repeats span owners) (absent : span ∉ names) :
    owners = [] ∧ span ∉ repeats := by
  cases owned with
  | none _ single => exact ⟨rfl, single⟩
  | one owner shown => exact absurd shown absent
  | two element _ shown => exact absurd shown absent

/-- Two parts follow each other, and one of them does not show the name. -/
theorem append {moreNames moreRepeats : List Span} {moreOwners : List NodeId}
    (first : Owned elements names repeats span owners)
    (second : Owned more moreNames moreRepeats span moreOwners)
    (once : span ∉ names ∨ span ∉ moreNames) :
    Owned (elements ++ more) (names ++ moreNames) (repeats ++ moreRepeats) span
      (owners ++ moreOwners) := by
  rcases once with absent | absent
  · rcases first.eq_nil absent with ⟨rfl, single⟩
    cases second with
    | none => exact .none (by simp [*]) (by simp [*])
    | one owner => exact .one owner (by simp [*]) (by simp [*])
    | two element => exact .two element (by simp [*]) (by simp [*]) (by simp [*])
  · rcases second.eq_nil absent with ⟨rfl, single⟩
    rw [List.append_nil]
    cases first with
    | none => exact .none (by simp [*]) (by simp [*])
    | one owner => exact .one owner (by simp [*]) (by simp [*])
    | two element => exact .two element (by simp [*]) (by simp [*]) (by simp [*])

/-- More elements may be met. -/
theorem cons (owned : Owned elements names repeats span owners) (element : Placed) :
    Owned (element :: elements) names repeats span owners := by
  cases owned with
  | none absent single => exact .none absent single
  | one owner shown single => exact .one owner shown single
  | two other member shown twice => exact .two other (.tail _ member) shown twice

end Owned

/-- The owners of a name among the names that a walk has met. -/
def ownersOf (span : Span) (met : List (NodeId × Span)) : List NodeId :=
  (met.filter (·.2 == span)).map (·.1)

theorem ownersOf_append (span : Span) (front back : List (NodeId × Span)) :
    ownersOf span (front ++ back) = ownersOf span front ++ ownersOf span back := by
  simp [ownersOf]

theorem ownersOf_singleton (span : Span) (owner : NodeId) (place : Span) :
    ownersOf span [(owner, place)] = if place = span then [owner] else [] := by
  rw [ownersOf, List.filter_singleton]
  by_cases same : place = span
  · simp [same]
  · simp [same, beq_eq_false_iff_ne.mpr same]

/-- An element that repeats a name owns it. -/
theorem exists_metAll_of_isRepeatedBy {outlines : List Outline} (source : SourceText)
    (owner : NodeId) (walk : Walk) (repeated : (Outline.name span).isRepeatedBy outlines) :
    (∃ met, metAll source owner outlines walk = (walk.graph.nextId, span) :: met) ∧
      ∃ element ∈ placedAll source owner outlines walk,
        element.owner = owner ∧ element.id = walk.graph.nextId := by
  unfold Outline.isRepeatedBy at repeated
  split at repeated
  · next next rest same =>
    cases same
    unfold Outline.repeats at repeated
    split at repeated
    · next form place first children =>
      rw [eq_of_beq (Bool.and_eq_true_iff.mp repeated).1]
      exact ⟨⟨_, rfl⟩, _, .head _, rfl, rfl⟩
    · cases repeated
  · cases repeated

/-- A name that the next element repeats belongs to that element as well. -/
theorem Owned.double {outlines : List Outline} {owner : NodeId} {walk : Walk}
    (rest : Owned (placedAll source owner outlines walk) (Outline.namesAll outlines)
      (Outline.repeatedAll outlines) span (ownersOf span (metAll source owner outlines walk)))
    (repeated : (Outline.name span).isRepeatedBy outlines)
    (once : Outline.tallyAll (.name span) outlines ≤ 1) :
    Owned (placedAll source owner outlines walk) (span :: Outline.namesAll outlines)
      (span :: Outline.repeatedAll outlines) span
      (owner :: ownersOf span (metAll source owner outlines walk)) := by
  have single := Outline.not_mem_repeatedAll_of_isRepeatedBy repeated once
  have positive := Outline.tallyAll_pos_of_isRepeatedBy repeated
  have shown := (Outline.tallyAll_pos_iff_mem_namesAll outlines).mp positive
  rcases exists_metAll_of_isRepeatedBy source owner walk repeated with
    ⟨⟨met, first⟩, element, member, isOwner, isNext⟩
  have leads : ownersOf span (metAll source owner outlines walk) =
      walk.graph.nextId :: ownersOf span met := by
    rw [first]
    simp [ownersOf]
  have owners : ownersOf span (metAll source owner outlines walk) = [walk.graph.nextId] := by
    rw [leads] at rest ⊢
    generalize walk.graph.nextId = id, ownersOf span met = others at rest ⊢
    cases rest with
    | one => rfl
    | two _ _ _ twice => exact absurd twice single
  have pair : owner :: [walk.graph.nextId] = [element.owner, element.id] := by
    rw [isOwner, isNext]
  rw [owners, pair]
  exact .two element member (.head _) (.head _)

mutual

/-- A name that counts once is owned as it is shown. -/
theorem owned_met (source : SourceText) (owner : NodeId) :
    (outline : Outline) → (walk : Walk) → outline.tally (.name span) ≤ 1 →
      Owned (placed source owner outline walk) outline.names outline.repeated span
        (ownersOf span (met source owner outline walk))
  | .element form place attributes children, walk, once => by
      rw [Outline.tally] at once
      have described := owned_metAll source walk.graph.nextId attributes
        (walk.enter source owner form place) (by omega)
      have filled := owned_metAll source walk.graph.nextId children
        (followAll source walk.graph.nextId attributes (walk.enter source owner form place))
        (by omega)
      rw [met, ownersOf_append]
      refine (described.append filled ?_).cons _
      rw [← Outline.tallyAll_pos_iff_mem_namesAll, ← Outline.tallyAll_pos_iff_mem_namesAll]
      omega
  | .name place, walk, once => by
      rw [met, ownersOf_singleton]
      split
      · next same => exact .one owner (by simp [Outline.names, same]) List.not_mem_nil
      · next other =>
        exact .none (by simpa [Outline.names] using Ne.symm other) List.not_mem_nil
  | .document place text, walk, once => .none List.not_mem_nil List.not_mem_nil
  | .ascription attributes pattern type, walk, once => by
      rw [Outline.tally] at once
      have described := owned_metAll source owner attributes walk (by omega)
      have patternOwned := owned_met source owner pattern (followAll source owner attributes walk)
        (by omega)
      have typeOwned := owned_met source owner type
        (follow source owner pattern (followAll source owner attributes walk)).2 (by omega)
      rw [met, ownersOf_append, ownersOf_append]
      refine described.append (patternOwned.append typeOwned ?_) ?_
      · rw [← Outline.tally_pos_iff_mem_names, ← Outline.tally_pos_iff_mem_names]
        omega
      · rw [List.mem_append, ← Outline.tallyAll_pos_iff_mem_namesAll,
          ← Outline.tally_pos_iff_mem_names, ← Outline.tally_pos_iff_mem_names]
        omega

theorem owned_metAll (source : SourceText) (owner : NodeId) :
    (outlines : List Outline) → (walk : Walk) → Outline.tallyAll (.name span) outlines ≤ 1 →
      Owned (placedAll source owner outlines walk) (Outline.namesAll outlines)
        (Outline.repeatedAll outlines) span (ownersOf span (metAll source owner outlines walk))
  | [], walk, once => .none List.not_mem_nil List.not_mem_nil
  | outline :: outlines, walk, once => by
      rw [Outline.tallyAll_cons] at once
      have rest := owned_metAll source owner outlines (follow source owner outline walk).2
        (by omega)
      rw [metAll, ownersOf_append]
      split at once
      · next repeated =>
        cases outline with
        | name place =>
            rw [Outline.namesAll, Outline.repeatedAll, if_pos repeated, placedAll, met,
              ownersOf_singleton]
            split
            · next same =>
              subst same
              exact rest.double repeated (by omega)
            · next other =>
              have first : Owned [] [place] [place] span [] :=
                .none (by simpa using Ne.symm other) (by simpa using Ne.symm other)
              exact first.append rest (.inl (by simpa using Ne.symm other))
        | _ => cases repeated
      · next single =>
        have first := owned_met source owner outline walk (by omega)
        rw [Outline.repeatedAll, if_neg single]
        apply first.append rest
        rw [← Outline.tally_pos_iff_mem_names, ← Outline.tallyAll_pos_iff_mem_namesAll]
        omega

end

end Walk

/-! ## Owners in a graph -/

/-- The identifiers of a graph belong to innermost elements: an identifier has one owner at most,
and no element below an owner is linked to the identifier as well. -/
def Graph.HasInnermostOwners (graph : Graph) : Prop :=
  ∀ edge ∈ graph.edgesOfKind .associatedToken,
    (∀ inner, TransGen graph.Owns edge.source inner →
        ⟨inner, edge.target, .associatedToken⟩ ∉ graph.edges) ∧
      (graph.edgesInto edge.target (some [.associatedToken])).length ≤ 1

/-- A node stands where a name of the outlines does that the next element repeats. -/
def Node.IsRepeated (source : SourceText) (outlines : List Outline) (node : Node) : Prop :=
  ∃ span ∈ Outline.repeatedAll outlines,
    source.carrySpan span = ⟨node.startPosition, node.endPosition⟩

/-- To which elements the identifiers of a graph belong. -/
structure Ownership (source : SourceText) (outlines : List Outline) (graph : Graph) : Prop where
  /-- An identifier belongs to one element at most if it is not repeated. -/
  single : ∀ token ∈ graph.tokens, token.kind = .identifierToken →
    ¬token.IsRepeated source outlines →
      (graph.edgesInto token.id (some [.associatedToken])).length ≤ 1
  /-- An identifier that is repeated belongs to an element and to one directly below it. -/
  double : ∀ token ∈ graph.tokens, token.kind = .identifierToken →
    token.IsRepeated source outlines →
      ∃ outer inner, graph.Owns outer inner ∧
        graph.edgesInto token.id (some [.associatedToken]) =
          [⟨outer, token.id, .associatedToken⟩, ⟨inner, token.id, .associatedToken⟩]
  /-- The owners are innermost just when no identifier is repeated. -/
  innermost_iff : graph.HasInnermostOwners ↔
    ∀ token ∈ graph.tokens, token.kind = .identifierToken → ¬token.IsRepeated source outlines

namespace Extraction

variable {source : SourceText} {outlines : List Outline} {lexemes : List Lexeme}
  {elements : List Walk.Placed} {met : List (NodeId × Span)} {graph : Graph} {token : Node}
  {span : Span}

/-- The links to an identifier come from the owners of the name that stands there. -/
theorem Depicts.edgesInto_name (depicts : Depicts source outlines lexemes elements met graph)
    (injective : source.carrySpan.Injective) (member : token ∈ graph.tokens)
    (identifier : token.kind = .identifierToken)
    (placed : source.carrySpan span = ⟨token.startPosition, token.endPosition⟩) :
    graph.edgesInto token.id (some [.associatedToken]) =
      (Walk.ownersOf span met).map (⟨·, token.id, .associatedToken⟩) := by
  have same : ∀ name ∈ met, (source.carrySpan name.2 == source.carrySpan span) =
      (name.2 == span) := by
    intro name _
    rw [Bool.eq_iff_iff, beq_iff_eq, beq_iff_eq]
    exact injective.eq_iff
  rw [depicts.edgesInto_token member identifier, ← placed, List.filter_congr same, Walk.ownersOf,
    List.map_map]
  rfl

/-- Where no name of the syntax stands, nothing is linked to an identifier. -/
theorem Depicts.edgesInto_eq_nil (depicts : Depicts source outlines lexemes elements met graph)
    (member : token ∈ graph.tokens) (identifier : token.kind = .identifierToken)
    (elsewhere : ∀ span, source.carrySpan span ≠ ⟨token.startPosition, token.endPosition⟩) :
    graph.edgesInto token.id (some [.associatedToken]) = [] := by
  have none : (met.filter fun name => source.carrySpan name.2 ==
      ⟨token.startPosition, token.endPosition⟩) = [] := by
    apply List.filter_eq_nil_iff.mpr
    intro name _ same
    exact elsewhere name.2 (eq_of_beq same)
  rw [depicts.edgesInto_token member identifier, none]
  rfl

/-- Owners are innermost where each identifier belongs to one element at most. -/
theorem Depicts.hasInnermostOwners (depicts : Depicts source outlines lexemes elements met graph)
    (single : ∀ token ∈ graph.tokens, token.kind = .identifierToken →
      (graph.edgesInto token.id (some [.associatedToken])).length ≤ 1) :
    graph.HasInnermostOwners := by
  intro edge linked
  rcases List.mem_filter.mp linked with ⟨live, isLink⟩
  have planted := depicts.planted
  obtain ⟨token, member, same, kind⟩ := (planted.fits edge live).2
  rw [eq_of_beq isLink] at kind
  have isToken : token ∈ graph.tokens := Graph.mem_nodesOfKind.mpr ⟨member, .tail _ kind⟩
  have atMost := single token isToken (List.mem_singleton.mp kind)
  rw [same] at atMost
  refine ⟨?_, atMost⟩
  intro inner below alsoLive
  -- both links would be one link, and then the element would stand below itself
  have here : edge ∈ graph.edgesInto edge.target (some [.associatedToken]) :=
    Graph.mem_edgesInto.mpr ⟨live, rfl, eq_of_beq isLink⟩
  have there : ⟨inner, edge.target, .associatedToken⟩ ∈
      graph.edgesInto edge.target (some [.associatedToken]) :=
    Graph.mem_edgesInto.mpr ⟨alsoLive, rfl, rfl⟩
  generalize graph.edgesInto edge.target (some [.associatedToken]) = links at atMost here there
  match links, atMost with
  | [only], _ =>
      rw [List.mem_singleton] at here there
      have itself : inner = edge.source := congrArg Edge.source (there.trans here.symm)
      exact planted.astTree.acyclic edge.source (itself ▸ below)

section Ownership

variable (depicts : Depicts source outlines lexemes elements met graph)
  (injective : source.carrySpan.Injective)
  (owned : ∀ span, Walk.Owned elements (Outline.namesAll outlines) (Outline.repeatedAll outlines)
    span (Walk.ownersOf span met))
include depicts injective owned

/-- An identifier that is repeated belongs to an element and to one directly below it. -/
theorem Depicts.exists_owners_of_isRepeated (member : token ∈ graph.tokens)
    (identifier : token.kind = .identifierToken) (repeated : token.IsRepeated source outlines) :
    ∃ outer inner, graph.Owns outer inner ∧
      graph.edgesInto token.id (some [.associatedToken]) =
        [⟨outer, token.id, .associatedToken⟩, ⟨inner, token.id, .associatedToken⟩] := by
  rcases repeated with ⟨span, twice, placed⟩
  have links := depicts.edgesInto_name injective member identifier placed
  have ownedHere := owned span
  generalize Walk.ownersOf span met = owners at links ownedHere
  cases ownedHere with
  | none _ single => exact absurd twice single
  | one owner _ single => exact absurd twice single
  | two element inElements =>
      have present {owner : NodeId}
          (listed : ⟨owner, token.id, .associatedToken⟩ ∈
            graph.edgesInto token.id (some [.associatedToken])) : graph.contains owner :=
        (depicts.planted.invariant.ends_of_mem_edges (Graph.mem_edgesInto.mp listed).1).1
      refine ⟨element.owner, element.id, depicts.tree element inElements ?_ ?_, links⟩
      · exact present (links ▸ .head _)
      · exact present (links ▸ .tail _ (.head _))

/-- Any other identifier belongs to one element at most. -/
theorem Depicts.length_owners_le_one (member : token ∈ graph.tokens)
    (identifier : token.kind = .identifierToken) (once : ¬token.IsRepeated source outlines) :
    (graph.edgesInto token.id (some [.associatedToken])).length ≤ 1 := by
  by_cases carried : ∃ span, source.carrySpan span = ⟨token.startPosition, token.endPosition⟩
  · rcases carried with ⟨span, placed⟩
    have links := depicts.edgesInto_name injective member identifier placed
    have ownedHere := owned span
    generalize Walk.ownersOf span met = owners at links ownedHere
    rw [links, List.length_map]
    cases ownedHere with
    | none => exact Nat.zero_le 1
    | one => exact Nat.le_refl 1
    | two _ _ _ twice => exact absurd ⟨span, twice, placed⟩ once
  · rw [depicts.edgesInto_eq_nil member identifier (not_exists.mp carried)]
    exact Nat.zero_le 1

/-- Where no owner of an identifier is met twice, the links to it are as the names are owned. -/
theorem Depicts.ownership : Ownership source outlines graph := by
  constructor
  case single =>
    exact fun token member identifier => depicts.length_owners_le_one injective owned member
      identifier
  case double =>
    exact fun token member identifier => depicts.exists_owners_of_isRepeated injective owned
      member identifier
  case innermost_iff =>
    constructor
    · intro innermost token member identifier repeated
      rcases depicts.exists_owners_of_isRepeated injective owned member identifier repeated with
        ⟨outer, inner, -, links⟩
      have listed : ⟨outer, token.id, .associatedToken⟩ ∈
          graph.edgesInto token.id (some [.associatedToken]) := links ▸ .head _
      have live := (Graph.mem_edgesInto.mp listed).1
      have atMost := (innermost _ (List.mem_filter.mpr ⟨live, rfl⟩)).2
      rw [links] at atMost
      exact absurd atMost (by simp)
    · intro once
      apply depicts.hasInnermostOwners
      intro token member identifier
      exact depicts.length_owners_le_one injective owned member identifier
        (once token member identifier)

end Ownership

/-- The identifiers of an accepted source belong to one element each, but for those that the next
element repeats. -/
theorem ownership_of_run {placement : Placement} {prune : Bool} {fileName text : String}
    {extraction : Extraction} (distinct : placement.Separates text)
    (accepted : run placement prune fileName text = .ok extraction) :
    ∃ outlines, outlineOf (.ofString text) = .ok outlines ∧
      Ownership (.ofString text) outlines extraction.graph := by
  rcases depicts_of_run distinct accepted with ⟨outlines, lexemes, parsed, -, depicts⟩
  refine ⟨outlines, parsed, ?_⟩
  rcases SourceText.exists_follows_ofString text with ⟨front, follows⟩
  rcases trees_of_outlineOf parsed with ⟨trees, grouped, outlined⟩
  have marked := Outline.marked_of_outline grouped outlined
  exact depicts.ownership follows.carrySpan_injective fun span =>
    Walk.owned_metAll _ 0 outlines _ (marked.once span)

/-- A struct with a field that is also its value. -/
def shorthandField : String := "const C: S = S \x7b x \x7d;"

/-- A struct with a field that is also its value, the name of which belongs to two elements. -/
theorem ownership_shorthand :
    highPlacement.Separates shorthandField ∧
      ∃ extraction outlines, run highPlacement true "a.rs" shorthandField = .ok extraction ∧
        outlineOf (.ofString shorthandField) = .ok outlines ∧
        Ownership (.ofString shorthandField) outlines extraction.graph ∧
        Outline.repeatedAll outlines = [⟨17, 18⟩] := by
  have distinct : highPlacement.Separates shorthandField :=
    Placement.separates_of_all (by decide +kernel)
  have succeeds : (run highPlacement true "a.rs" shorthandField).isOk := by decide +kernel
  have repeated : (outlineOf (.ofString shorthandField)).toOption.map
      Outline.repeatedAll = some [⟨17, 18⟩] := by
    decide +kernel
  rcases exists_of_isOk succeeds with ⟨extraction, accepted⟩
  rcases ownership_of_run distinct accepted with ⟨outlines, parsed, ownership⟩
  rw [parsed] at repeated
  exact ⟨distinct, extraction, outlines, accepted, parsed, ownership, Option.some_inj.mp repeated⟩

/-- The field of a struct that is also its value is linked to the struct and to the value. -/
theorem exists_links_of_shorthand (prune : Bool) :
    ∃ extraction, ofSource prune "a.rs" shorthandField = .ok extraction ∧
      [⟨3, 4, .astChild⟩, ⟨3, 12, .associatedToken⟩, ⟨4, 12, .associatedToken⟩] ⊆
        extraction.graph.edges := by
  have left : (ofSource prune "a.rs" shorthandField).toOption.any fun extraction =>
      decide ([⟨3, 4, .astChild⟩, ⟨3, 12, .associatedToken⟩, ⟨4, 12, .associatedToken⟩] ⊆
        extraction.graph.edges) := by
    cases prune <;> decide +kernel
  rcases exists_of_any left with ⟨extraction, accepted, links⟩
  exact ⟨extraction, accepted, of_decide_eq_true links⟩

/-- The identifiers of a struct with a field that is also its value do not belong to innermost
elements, pruned or not. -/
theorem not_hasInnermostOwners_shorthand :
    ∃ plain pruned, ofSource false "a.rs" shorthandField = .ok plain ∧
      ofSource true "a.rs" shorthandField = .ok pruned ∧
      ¬plain.graph.HasInnermostOwners ∧ ¬pruned.graph.HasInnermostOwners := by
  have doubled {graph : Graph}
      (links : [⟨3, 4, .astChild⟩, ⟨3, 12, .associatedToken⟩, ⟨4, 12, .associatedToken⟩] ⊆
        graph.edges) : ¬graph.HasInnermostOwners := by
    intro innermost
    have outer : ⟨3, 12, .associatedToken⟩ ∈ graph.edgesOfKind .associatedToken :=
      List.mem_filter.mpr ⟨links (.tail _ (.head _)), rfl⟩
    exact (innermost _ outer).1 4 (.single (links (.head _))) (links (.tail _ (.tail _ (.head _))))
  rcases exists_links_of_shorthand false with ⟨plain, accepted, links⟩
  rcases exists_links_of_shorthand true with ⟨pruned, prunedAccepted, prunedLinks⟩
  exact ⟨plain, pruned, accepted, prunedAccepted, doubled links, doubled prunedLinks⟩

end Extraction

end ProgramGraph
