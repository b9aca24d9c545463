import ProgramGraph.Proofs.Extraction.Types
import ProgramGraph.Proofs.Grammar.Order

/-!
# What a walk meets

A walk over outlines meets elements, which it gives nodes, and names, which it notes with the
element that each belongs to.  The names that stand directly in an element are those that are
noted with its node, in the order in which they stand there; and the elements that a walk has
met are those of its graph, with an edge of the tree for each.
-/

namespace ProgramGraph

open Source

namespace Outline

mutual

/-- The names that stand directly in an outline, in the order of visiting. -/
def ownNames : Outline → List Span
  | element .. => []
  | name span => [span]
  | document _ _ => []
  | ascription attributes pattern type =>
      ownNamesAll attributes ++ (pattern.ownNames ++ type.ownNames)

/-- The names that stand directly in outlines. -/
def ownNamesAll : List Outline → List Span
  | [] => []
  | outline :: outlines => outline.ownNames ++ ownNamesAll outlines

end

mutual

/-- The stretches of the types that patterns are given in an outline, in the order of
visiting. -/
def annotations : Outline → List Span
  | element _ _ attributes children => annotationsAll attributes ++ annotationsAll children
  | name _ => []
  | document _ _ => []
  | ascription attributes pattern type =>
      annotationsAll attributes ++ (pattern.annotations ++ (type.annotations ++ [type.span]))

/-- The stretches of the types that patterns are given in outlines. -/
def annotationsAll : List Outline → List Span
  | [] => []
  | outline :: outlines => outline.annotations ++ annotationsAll outlines

end

end Outline

/-- A node of a kind is new or was there before. -/
theorem Graph.mem_nodesOfKind_pushNode {graph : Graph} {new node : Node} {kinds : List NodeKind}
    (member : node ∈ (graph.pushNode new).nodesOfKind kinds) :
    node ∈ graph.nodesOfKind kinds ∨ node = new := by
  rcases mem_nodesOfKind.mp member with ⟨inGraph, kind⟩
  rcases List.mem_append.mp inGraph with earlier | last
  · exact .inl (mem_nodesOfKind.mpr ⟨earlier, kind⟩)
  · exact .inr (List.mem_singleton.mp last)

theorem Graph.mem_nodesOfKind_of_freshNode {graph : Graph} {node : Node} {kind : NodeKind}
    {contents : String} {first last : Nat} {kinds : List NodeKind} (other : kind ∉ kinds)
    (member : node ∈
      (graph.pushNode (graph.freshNode kind contents first last)).nodesOfKind kinds) :
    node ∈ graph.nodesOfKind kinds := by
  rcases mem_nodesOfKind_pushNode member with earlier | rfl
  · exact earlier
  · exact absurd (mem_nodesOfKind.mp member).2 other

namespace Walk

variable {source : SourceText} {owner low middle high : NodeId} {walk between after : Walk}

/-! ## Elements and names -/

/-- An element at its node below the node of its owner. -/
structure Placed where
  owner : NodeId
  id : NodeId
  form : Form
  span : Span
  attributes : List Outline
  children : List Outline

namespace Placed

/-- The edge of the tree that leads to an element. -/
def edge (placed : Placed) : Edge :=
  ⟨placed.owner, placed.id, .astChild⟩

/-- The names that stand directly in an element, attributes first. -/
def ownNames (placed : Placed) : List Span :=
  Outline.ownNamesAll placed.attributes ++ Outline.ownNamesAll placed.children

/-- A node is that of an element. -/
structure ShownBy (source : SourceText) (placed : Placed) (node : Node) : Prop where
  id : node.id = placed.id
  contents : node.contents = placed.form.label
  first : node.startPosition = source.carry placed.span.first
  last : node.endPosition = source.carry placed.span.last

end Placed

/-- The walk with a node for an element. -/
def enter (source : SourceText) (owner : NodeId) (form : Form) (span : Span) (walk : Walk) :
    Walk :=
  (walk.addNode .astElement form.label (source.carrySpan span)).addEdge
    ⟨owner, walk.graph.nextId, .astChild⟩

mutual

/-- The names that a walk over an outline meets, each with the node that it belongs to. -/
def met (source : SourceText) (owner : NodeId) : Outline → Walk → List (NodeId × Span)
  | .element form span attributes children, walk =>
      let id := walk.graph.nextId
      let entered := walk.enter source owner form span
      metAll source id attributes entered ++
        metAll source id children (followAll source id attributes entered)
  | .name span, _ => [(owner, span)]
  | .document _ _, _ => []
  | .ascription attributes pattern type, walk =>
      let described := followAll source owner attributes walk
      metAll source owner attributes walk ++
        (met source owner pattern described ++
          met source owner type (follow source owner pattern described).2)

/-- The names that a walk over outlines meets. -/
def metAll (source : SourceText) (owner : NodeId) : List Outline → Walk → List (NodeId × Span)
  | [], _ => []
  | outline :: outlines, walk =>
      met source owner outline walk ++
        metAll source owner outlines (follow source owner outline walk).2

end

mutual

/-- The elements that a walk over an outline meets. -/
def placed (source : SourceText) (owner : NodeId) : Outline → Walk → List Placed
  | .element form span attributes children, walk =>
      let id := walk.graph.nextId
      let entered := walk.enter source owner form span
      ⟨owner, id, form, span, attributes, children⟩ ::
        (placedAll source id attributes entered ++
          placedAll source id children (followAll source id attributes entered))
  | .name _, _ => []
  | .document _ _, _ => []
  | .ascription attributes pattern type, walk =>
      let described := followAll source owner attributes walk
      placedAll source owner attributes walk ++
        (placed source owner pattern described ++
          placed source owner type (follow source owner pattern described).2)

/-- The elements that a walk over outlines meets. -/
def placedAll (source : SourceText) (owner : NodeId) : List Outline → Walk → List Placed
  | [], _ => []
  | outline :: outlines, walk =>
      placed source owner outline walk ++
        placedAll source owner outlines (follow source owner outline walk).2

end

/-! ## Ids -/

/-- A part of a walk that gives the ids from `low` to `high`: what it meets, and the names among
them that belong to the owner. -/
structure Meets (owner low high : NodeId) (placed : List Placed) (met : List (NodeId × Span))
    (own : List Span) : Prop where
  le : low ≤ high
  ids : ∀ element ∈ placed, low ≤ element.id ∧ element.id < high
  owners : ∀ name ∈ met, name.1 = owner ∨ low ≤ name.1 ∧ name.1 < high
  own : met.filter (·.1 == owner) = own.map (owner, ·)
  /-- The names that belong to an element are those that stand directly in it. -/
  inner : ∀ element ∈ placed,
    met.filter (·.1 == element.id) = element.ownNames.map (element.id, ·)

namespace Meets

variable {placed more : List Placed} {met others : List (NodeId × Span)} {own further : List Span}

theorem none (owner low : NodeId) : Meets owner low low [] [] [] where
  le := Nat.le_refl _
  ids := nofun
  owners := nofun
  own := rfl
  inner := nofun

theorem name (owner low : NodeId) (span : Span) :
    Meets owner low low [] [(owner, span)] [span] where
  le := Nat.le_refl _
  ids := nofun
  owners := List.forall_mem_singleton.mpr (.inl rfl)
  own := by simp
  inner := nofun

/-- No name belongs to an id other than the owner and those that are given. -/
theorem filter_eq_nil {id : NodeId} (meets : Meets owner low high placed met own)
    (other : id ≠ owner) (outside : id < low ∨ high ≤ id) :
    met.filter (·.1 == id) = [] := by
  apply List.filter_eq_nil_iff.mpr
  intro name member same
  rw [beq_iff_eq] at same
  rcases meets.owners name member with isOwner | ⟨above, under⟩
  · exact other (same.symm.trans isOwner)
  · rw [same] at above under
    rcases outside with less | more
    · exact Nat.not_le_of_lt less above
    · exact Nat.not_le_of_lt under more

/-- Two parts follow each other. -/
theorem append (first : Meets owner low middle placed met own)
    (second : Meets owner middle high more others further) (below : owner < low) :
    Meets owner low high (placed ++ more) (met ++ others) (own ++ further) where
  le := Nat.le_trans first.le second.le
  ids element member := by
    rcases List.mem_append.mp member with earlier | later
    · have inside := first.ids element earlier
      exact ⟨inside.1, Nat.lt_of_lt_of_le inside.2 second.le⟩
    · have inside := second.ids element later
      exact ⟨Nat.le_trans first.le inside.1, inside.2⟩
  owners name member := by
    rcases List.mem_append.mp member with earlier | later
    · apply (first.owners name earlier).imp_right
      exact fun inside => ⟨inside.1, Nat.lt_of_lt_of_le inside.2 second.le⟩
    · apply (second.owners name later).imp_right
      exact fun inside => ⟨Nat.le_trans first.le inside.1, inside.2⟩
  own := by rw [List.filter_append, first.own, second.own, List.map_append]
  inner element member := by
    rw [List.filter_append]
    rcases List.mem_append.mp member with earlier | later
    · have inside := first.ids element earlier
      have other := Nat.ne_of_gt (Nat.lt_of_lt_of_le below inside.1)
      rw [second.filter_eq_nil other (.inl inside.2), List.append_nil]
      exact first.inner element earlier
    · have inside := second.ids element later
      have other := Nat.ne_of_gt
        (Nat.lt_of_lt_of_le below (Nat.le_trans first.le inside.1))
      rw [first.filter_eq_nil other (.inr inside.1), List.nil_append]
      exact second.inner element later

/-- What stands in an element belongs to it. -/
theorem element {form : Form} {span : Span} {attributes children : List Outline}
    (meets : Meets low (low + 1) high placed met
      (Outline.ownNamesAll attributes ++ Outline.ownNamesAll children)) (below : owner < low) :
    Meets owner low high (⟨owner, low, form, span, attributes, children⟩ :: placed) met [] where
  le := Nat.le_of_succ_le meets.le
  ids element member := by
    rcases List.mem_cons.mp member with rfl | inner
    · exact ⟨Nat.le_refl _, meets.le⟩
    · have inside := meets.ids element inner
      exact ⟨Nat.le_of_succ_le inside.1, inside.2⟩
  owners name member := by
    rcases meets.owners name member with isOwner | inside
    · exact .inr ⟨Nat.le_of_eq isOwner.symm, isOwner ▸ meets.le⟩
    · exact .inr ⟨Nat.le_of_succ_le inside.1, inside.2⟩
  own := meets.filter_eq_nil (Nat.ne_of_lt below) (.inl (Nat.lt_succ_of_lt below))
  inner element member := by
    rcases List.mem_cons.mp member with rfl | inner
    · exact meets.own
    · exact meets.inner element inner

/-- Ids may be given to other nodes behind. -/
theorem widen {higher : NodeId} (meets : Meets owner low high placed met own)
    (le : high ≤ higher) : Meets owner low higher placed met own where
  le := Nat.le_trans meets.le le
  ids element member := by
    have inside := meets.ids element member
    exact ⟨inside.1, Nat.lt_of_lt_of_le inside.2 le⟩
  owners name member := by
    apply (meets.owners name member).imp_right
    exact fun inside => ⟨inside.1, Nat.lt_of_lt_of_le inside.2 le⟩
  own := meets.own
  inner := meets.inner

end Meets

theorem nextId_addType (source : SourceText) (pattern : NodeId) (span : Span) (walk : Walk) :
    walk.graph.nextId ≤ (walk.addType source pattern span).graph.nextId := by
  unfold addType addTypeNode
  dsimp only
  split
  · exact Nat.le_refl _
  · exact Nat.le_succ _

mutual

/-- The ids of what a walk over an outline meets. -/
theorem meets_follow (source : SourceText) (owner : NodeId) :
    (outline : Outline) → (walk : Walk) → owner < walk.graph.nextId →
      Meets owner walk.graph.nextId (follow source owner outline walk).2.graph.nextId
        (placed source owner outline walk) (met source owner outline walk) outline.ownNames
  | .element form span attributes children, walk, below => by
      have entered : walk.graph.nextId < (walk.enter source owner form span).graph.nextId :=
        Nat.lt_succ_self _
      have described := meets_followAll source walk.graph.nextId attributes _ entered
      have filled := meets_followAll source walk.graph.nextId children _
        (Nat.lt_of_lt_of_le entered described.le)
      exact (described.append filled entered).element below
  | .name span, walk, below => .name owner walk.graph.nextId span
  | .document span text, walk, below => (Meets.none owner _).widen (Nat.le_succ _)
  | .ascription attributes pattern type, walk, below => by
      have described := meets_followAll source owner attributes walk below
      have patternMet := meets_follow source owner pattern _
        (Nat.lt_of_lt_of_le below described.le)
      have typeMet := meets_follow source owner type _
        (Nat.lt_of_lt_of_le below (Nat.le_trans described.le patternMet.le))
      have both := described.append
        (patternMet.append typeMet (Nat.lt_of_lt_of_le below described.le)) below
      refine both.widen ?_
      rw [follow]
      dsimp only
      split
      · exact nextId_addType ..
      · exact Nat.le_refl _

theorem meets_followAll (source : SourceText) (owner : NodeId) :
    (outlines : List Outline) → (walk : Walk) → owner < walk.graph.nextId →
      Meets owner walk.graph.nextId (followAll source owner outlines walk).graph.nextId
        (placedAll source owner outlines walk) (metAll source owner outlines walk)
        (Outline.ownNamesAll outlines)
  | [], walk, below => .none owner _
  | outline :: outlines, walk, below => by
      have first := meets_follow source owner outline walk below
      have rest := meets_followAll source owner outlines _ (Nat.lt_of_lt_of_le below first.le)
      exact first.append rest below

end

/-! ## Records -/

/-- A node shows the type that is written in a stretch of the syntax. -/
structure ShowsType (source : SourceText) (span : Span) (node : Node) : Prop where
  contents : node.contents = String.ofList (Unicode.squeeze (source.slice (source.carrySpan span)))
  first : node.startPosition = source.carry span.first
  last : node.endPosition = source.carry span.last

/-- A name that is met as it is noted. -/
def note (source : SourceText) (name : NodeId × Span) : NodeId × Span :=
  (name.1, source.carrySpan name.2)

/-- What a part of a walk adds to the notes and to the graph when it meets elements, names and
types that patterns are given. -/
structure Records (source : SourceText) (walk after : Walk) (placed : List Placed)
    (met : List (NodeId × Span)) (annotated : List Span) : Prop where
  names : after.names = (met.map (note source)).reverse ++ walk.names
  tree : after.graph.edgesOfKind .astChild =
    walk.graph.edgesOfKind .astChild ++ placed.map Placed.edge
  links : after.graph.edgesOfKind .associatedToken = walk.graph.edgesOfKind .associatedToken
  elements : ∀ node ∈ after.graph.astNodes,
    node ∈ walk.graph.astNodes ∨ ∃ element ∈ placed, element.ShownBy source node
  types : ∀ node ∈ after.graph.typeNodes,
    node ∈ walk.graph.typeNodes ∨ ∃ span ∈ annotated, ShowsType source span node

namespace Records

variable {placed more : List Placed} {met others : List (NodeId × Span)}
  {annotated further : List Span}

theorem refl (source : SourceText) (walk : Walk) : Records source walk walk [] [] [] where
  names := rfl
  tree := (List.append_nil _).symm
  links := rfl
  elements _ := .inl
  types _ := .inl

theorem trans (first : Records source walk between placed met annotated)
    (second : Records source between after more others further) :
    Records source walk after (placed ++ more) (met ++ others) (annotated ++ further) where
  names := by
    rw [second.names, first.names, List.map_append, List.reverse_append, List.append_assoc]
  tree := by rw [second.tree, first.tree, List.map_append, List.append_assoc]
  links := second.links.trans first.links
  elements node member := by
    rcases second.elements node member with before | ⟨element, later, shown⟩
    · apply (first.elements node before).imp_right
      rintro ⟨element, earlier, shown⟩
      exact ⟨element, List.mem_append_left _ earlier, shown⟩
    · exact .inr ⟨element, List.mem_append_right _ later, shown⟩
  types node member := by
    rcases second.types node member with before | ⟨span, later, shown⟩
    · apply (first.types node before).imp_right
      rintro ⟨span, earlier, shown⟩
      exact ⟨span, List.mem_append_left _ earlier, shown⟩
    · exact .inr ⟨span, List.mem_append_right _ later, shown⟩

/-- A type need not be shown. -/
theorem annotate (records : Records source walk after placed met annotated) (span : Span) :
    Records source walk after placed met (annotated ++ [span]) where
  names := records.names
  tree := records.tree
  links := records.links
  elements := records.elements
  types node member := by
    apply (records.types node member).imp_right
    rintro ⟨span, earlier, shown⟩
    exact ⟨span, List.mem_append_left _ earlier, shown⟩

/-- A name is noted. -/
theorem name (source : SourceText) (owner : NodeId) (span : Span) (walk : Walk) :
    Records source walk { walk with names := (owner, source.carrySpan span) :: walk.names }
      [] [(owner, span)] [] where
  names := rfl
  tree := (List.append_nil _).symm
  links := rfl
  elements _ := .inl
  types _ := .inl

/-- An element gets a node below its owner. -/
theorem enter (source : SourceText) (owner : NodeId) (form : Form) (span : Span)
    (attributes children : List Outline) (walk : Walk) :
    Records source walk (walk.enter source owner form span)
      [⟨owner, walk.graph.nextId, form, span, attributes, children⟩] [] [] where
  names := rfl
  tree := by
    rw [Walk.enter, addEdge, Graph.edgesOfKind, Graph.edges_pushEdge, List.filter_append]
    rfl
  links := Graph.edgesOfKind_pushEdge_of_ne nofun
  elements node member := by
    apply (Graph.mem_nodesOfKind_pushNode member).imp_right
    rintro rfl
    exact ⟨_, .head _, rfl, rfl, rfl, rfl⟩
  types _ member := .inl (Graph.mem_nodesOfKind_of_freshNode (by decide) member)

/-- Documentation gets a node. -/
theorem document (source : SourceText) (owner : NodeId) (span : Span) (text : String)
    (walk : Walk) :
    Records source walk (follow source owner (.document span text) walk).2 [] [] [] where
  names := rfl
  tree := by
    rw [List.map_nil, List.append_nil]
    exact Graph.edgesOfKind_pushEdge_of_ne nofun
  links := Graph.edgesOfKind_pushEdge_of_ne nofun
  elements _ member := .inl (Graph.mem_nodesOfKind_of_freshNode (by decide) member)
  types _ member := .inl (Graph.mem_nodesOfKind_of_freshNode (by decide) member)

/-- A pattern is given a type. -/
theorem addType (source : SourceText) (pattern : NodeId) (span : Span) (walk : Walk) :
    Records source walk (walk.addType source pattern (source.carrySpan span)) [] [] [span] := by
  unfold Walk.addType addTypeNode
  generalize shown : String.ofList (Unicode.squeeze (source.slice (source.carrySpan span))) = name
  dsimp only
  split
  · exact {
      names := rfl
      tree := by
        rw [List.map_nil, List.append_nil]
        exact Graph.edgesOfKind_pushEdge_of_ne nofun
      links := Graph.edgesOfKind_pushEdge_of_ne nofun
      elements := fun _ => .inl
      types := fun _ => .inl }
  · exact {
      names := rfl
      tree := by
        rw [List.map_nil, List.append_nil]
        exact Graph.edgesOfKind_pushEdge_of_ne nofun
      links := Graph.edgesOfKind_pushEdge_of_ne nofun
      elements := fun _ member => .inl (Graph.mem_nodesOfKind_of_freshNode (by decide) member)
      types := by
        intro node member
        apply (Graph.mem_nodesOfKind_pushNode member).imp_right
        rintro rfl
        exact ⟨span, .head _, shown.symm, rfl, rfl⟩ }

end Records

mutual

/-- A walk over an outline records what it meets. -/
theorem records_follow (source : SourceText) (owner : NodeId) :
    (outline : Outline) → (walk : Walk) →
      Records source walk (follow source owner outline walk).2 (placed source owner outline walk)
        (met source owner outline walk) outline.annotations
  | .element form span attributes children, walk =>
      (Records.enter source owner form span attributes children walk).trans
        ((records_followAll source _ attributes _).trans (records_followAll source _ children _))
  | .name span, walk => .name source owner span walk
  | .document span text, walk => .document source owner span text walk
  | .ascription attributes pattern type, walk => by
      let visited := (follow source owner pattern (followAll source owner attributes walk)).2
      have typeMet := records_follow source owner type visited
      refine (records_followAll source owner attributes walk).trans
        ((records_follow source owner pattern _).trans ?_)
      rw [follow]
      dsimp only
      split
      · next id answered =>
        have both := typeMet.trans (.addType source id type.span _)
        rwa [List.append_nil, List.append_nil] at both
      · exact typeMet.annotate type.span

/-- A walk over outlines records what it meets. -/
theorem records_followAll (source : SourceText) (owner : NodeId) :
    (outlines : List Outline) → (walk : Walk) →
      Records source walk (followAll source owner outlines walk)
        (placedAll source owner outlines walk) (metAll source owner outlines walk)
        (Outline.annotationsAll outlines)
  | [], walk => .refl source walk
  | outline :: outlines, walk =>
      (records_follow source owner outline walk).trans (records_followAll source owner outlines _)

end

end Walk

end ProgramGraph
