import ProgramGraph.Proofs.Dot.Label
import ProgramGraph.Proofs.Dot.Passes
import ProgramGraph.Proofs.Graph.Reachable

/-!
# The lines of a drawing

No line of a drawing has a line end within it.  So the text of a drawing falls apart
into the very lines that were put together, and their number tells how many blocks,
nodes and edges are shown.  Quotes stand on the lines of nodes only, and there they hold
the label and nothing else.
-/

namespace ProgramGraph.Dot

variable {graph : Graph} {verbose : Bool}

/-- The lines of a text. -/
def linesOf (text : String) : List String :=
  (text.split '\n').toList.map (·.copy)

/-! ## Lines without line ends -/

theorem toList_nodeLine (verbose : Bool) (node : Node) :
    (nodeLine verbose node).toList =
      "  ".toList ++ node.id.repr.toList ++ " [ label=".toList ++
        '"' :: ((label verbose node).toList ++ '"' :: "];".toList) := by
  simp [nodeLine, toString]

theorem toList_edgeLine (edge : Edge) :
    (edgeLine edge).toList =
      " ".toList ++ edge.source.repr.toList ++ " -> ".toList ++ edge.target.repr.toList ++
        " [ ".toList ++ (edgeStyle edge.kind).toList ++ "];".toList := by
  simp [edgeLine, toString]

theorem all_edgeStyle (kind : EdgeKind) :
    (edgeStyle kind).toList.all fun c => c != '\n' && c != '"' := by
  cases kind <;> decide

/-- Neither line ends nor quotes are in the line of an edge. -/
theorem not_mem_edgeLine {c : Char} (special : c = '\n' ∨ c = '"') (edge : Edge) :
    c ∉ (edgeLine edge).toList := by
  have style : c ∉ (edgeStyle edge.kind).toList := by
    intro member
    have plain := List.all_eq_true.mp (all_edgeStyle edge.kind) c member
    obtain rfl | rfl := special <;> exact absurd plain (by decide)
  have noDigit : c.isDigit = false := by
    obtain rfl | rfl := special <;> rfl
  have fixed : c ∉ " ".toList ∧ c ∉ " -> ".toList ∧ c ∉ " [ ".toList ∧ c ∉ "];".toList := by
    obtain rfl | rfl := special <;> decide
  simp only [toList_edgeLine, List.mem_append, not_or]
  have source := Decimal.not_mem_repr noDigit edge.source
  have target := Decimal.not_mem_repr noDigit edge.target
  exact ⟨⟨⟨⟨⟨⟨fixed.1, source⟩, fixed.2.1⟩, target⟩, fixed.2.2.1⟩, style⟩, fixed.2.2.2⟩

/-- No line end is in the line of a node. -/
theorem not_mem_nodeLine (verbose : Bool) (node : Node) :
    '\n' ∉ (nodeLine verbose node).toList := by
  simp only [toList_nodeLine, List.mem_append, List.mem_cons, not_or]
  exact ⟨⟨⟨by decide, Decimal.not_mem_repr rfl node.id⟩, by decide⟩, by decide,
    not_mem_label verbose node, by decide, by decide⟩

/-- The lines that show neither a node nor an edge. -/
def frameLines : List String :=
  ["digraph \x7b", " rankdir=LR;", " subgraph \x7b", "  rank=same;", "  rank=max;", " \x7d", "\x7d"]

theorem rankLines_subset (rank : Option Rank) : ∀ line ∈ rankLines rank, line ∈ frameLines := by
  obtain _ | _ | _ := rank <;> decide

theorem mem_blockLines {block : Block} {line : String} (member : line ∈ block.lines verbose) :
    line ∈ frameLines ∨ ∃ node ∈ block.nodes, nodeLine verbose node = line := by
  have opening : ∀ line ∈ [" subgraph \x7b"], line ∈ frameLines := by decide
  have closing : ∀ line ∈ [" \x7d"], line ∈ frameLines := by decide
  simp only [Block.lines, List.mem_append, List.mem_map] at member
  obtain ((first | rank) | ofNode) | last := member
  · exact .inl (opening line first)
  · exact .inl (rankLines_subset block.rank line rank)
  · exact .inr ofNode
  · exact .inl (closing line last)

/-- Every line shows a node, an edge or neither. -/
theorem mem_lines {document : Document} {line : String} (member : line ∈ document.lines verbose) :
    line ∈ frameLines ∨ (∃ node ∈ shown document.blocks, nodeLine verbose node = line) ∨
      ∃ edge ∈ document.edges, edgeLine edge = line := by
  have header : ∀ line ∈ ["digraph \x7b", " rankdir=LR;"], line ∈ frameLines := by decide
  have closing : ∀ line ∈ ["\x7d"], line ∈ frameLines := by decide
  simp only [Document.lines, List.mem_append, List.mem_flatMap, List.mem_map] at member
  obtain ((first | ⟨block, given, within⟩) | ofEdge) | last := member
  · exact .inl (header line first)
  · refine (mem_blockLines within).imp_right fun ⟨node, inBlock, ofNode⟩ => .inl ⟨node, ?_, ofNode⟩
    exact List.mem_flatMap.mpr ⟨block, given, inBlock⟩
  · exact .inr (.inr ofEdge)
  · exact .inl (closing line last)

theorem nodeLine_mem_lines {document : Document} {node : Node}
    (member : node ∈ shown document.blocks) : nodeLine verbose node ∈ document.lines verbose := by
  obtain ⟨block, given, inBlock⟩ := List.mem_flatMap.mp member
  have ofBlock : nodeLine verbose node ∈ block.lines verbose := by
    simp only [Block.lines, List.mem_append]
    exact .inl (.inr (List.mem_map_of_mem inBlock))
  simp only [Document.lines, List.mem_append]
  exact .inl (.inl (.inr (List.mem_flatMap.mpr ⟨block, given, ofBlock⟩)))

/-- The text of a drawing falls apart into the lines of the drawing. -/
theorem linesOf_text (document : Document) (verbose : Bool) :
    linesOf (document.text verbose) = document.lines verbose := by
  have noLineEnd : ∀ line ∈ document.lines verbose, '\n' ∉ line.toList := by
    intro line member
    obtain fixed | ⟨node, -, rfl⟩ | ⟨edge, -, rfl⟩ := mem_lines member
    · exact (by decide : ∀ line ∈ frameLines, '\n' ∉ line.toList) line fixed
    · exact not_mem_nodeLine verbose node
    · exact not_mem_edgeLine (.inl rfl) edge
  rw [linesOf, Document.text, show "\n" = String.singleton '\n' by decide,
    String.toList_split_intercalate noLineEnd, if_neg]
  simp [Document.lines]

/-! ## How many lines there are -/

theorem length_blockLines (block : Block) :
    (block.lines verbose).length =
      2 + (if block.rank.isSome then 1 else 0) + block.nodes.length := by
  obtain ⟨_ | _ | _, nodes⟩ := block <;> simp [Block.lines, rankLines] <;> omega

theorem length_flatMap_blockLines (blocks : List Block) :
    (blocks.flatMap (Block.lines verbose)).length =
      2 * blocks.length + blocks.countP (·.rank.isSome) + (shown blocks).length := by
  induction blocks with
  | nil => rfl
  | cons block blocks inductionHypothesis =>
      rw [List.flatMap_cons, List.length_append, inductionHypothesis, length_blockLines,
        List.countP_cons, List.length_cons, shown_cons, List.length_append]
      omega

theorem length_lines (document : Document) :
    (document.lines verbose).length =
      3 + 2 * document.blocks.length + document.blocks.countP (·.rank.isSome) +
        (shown document.blocks).length + document.edges.length := by
  simp only [Document.lines, List.length_append, length_flatMap_blockLines, List.length_cons,
    List.length_nil, List.length_map]
  omega

/-! ## Quotes and labels -/

/-- The label of a line, read from the first quote on, and what comes after it. -/
def labelOf (line : String) : Option (List Char × List Char) :=
  readLabel ((line.toList.dropWhile (· != '"')).drop 1)

/-- The label of the line of a node ends where the line does. -/
theorem labelOf_nodeLine (verbose : Bool) (node : Node) :
    labelOf (nodeLine verbose node) = some ((labelText verbose node).toList, "];".toList) := by
  have opening : ∀ c ∈ "  ".toList ++ node.id.repr.toList ++ " [ label=".toList, c != '"' := by
    intro c member
    rw [bne_iff_ne]
    rintro rfl
    simp only [List.mem_append] at member
    obtain (front | number) | back := member
    · exact absurd front (by decide)
    · exact Decimal.not_mem_repr rfl _ number
    · exact absurd back (by decide)
  rw [labelOf, toList_nodeLine, List.dropWhile_append_of_pos opening,
    List.dropWhile_cons_of_neg (by simp), List.drop_succ_cons, List.drop_zero, readLabel_label]

/-- Quotes are on the lines of nodes only. -/
theorem quote_mem_iff {document : Document} {line : String}
    (member : line ∈ document.lines verbose) :
    '"' ∈ line.toList ↔ ∃ node ∈ shown document.blocks, line = nodeLine verbose node := by
  constructor
  · intro quote
    obtain fixed | ⟨node, known, rfl⟩ | ⟨edge, -, rfl⟩ := mem_lines member
    · exact absurd quote ((by decide : ∀ line ∈ frameLines, '"' ∉ line.toList) line fixed)
    · exact ⟨node, known, rfl⟩
    · exact absurd quote (not_mem_edgeLine (.inr rfl) edge)
  · rintro ⟨node, -, rfl⟩
    simp [toList_nodeLine]

/-! ## Drawings of graphs -/

/-- The text of a drawing has the lines that were put together and no others, and on the
line of each node its label reads back and ends with the line. -/
structure WellQuoted (graph : Graph) (verbose : Bool) (document : Document) : Prop where
  lines : linesOf (document.text verbose) = document.lines verbose
  length : (document.lines verbose).length =
    3 + 2 * document.blocks.length + document.blocks.countP (·.rank.isSome) + graph.nodeCount +
      graph.edgeCount
  quotes : ∀ line ∈ document.lines verbose,
    '"' ∈ line.toList ↔ ∃ node ∈ graph.nodes, line = nodeLine verbose node
  labels : ∀ node ∈ graph.nodes, nodeLine verbose node ∈ document.lines verbose ∧
    labelOf (nodeLine verbose node) = some ((labelText verbose node).toList, "];".toList)

theorem wellQuoted_of_perm {document : Document} (invariant : graph.Invariant)
    (all : (shown document.blocks).Perm graph.nodes) (edges : document.edges = graph.edges)
    (verbose : Bool) : WellQuoted graph verbose document where
  lines := linesOf_text document verbose
  length := by
    rw [length_lines, all.length_eq, edges, Graph.nodeCount, Graph.edgeCount,
      invariant.counted, Graph.length_slotsWhere_true]
  quotes line member := by
    rw [quote_mem_iff member]
    exact exists_congr fun node => and_congr_left fun _ => all.mem_iff
  labels node member :=
    ⟨nodeLine_mem_lines (all.mem_iff.mpr member), labelOf_nodeLine verbose node⟩

/-- Whatever texts the nodes of a graph with one root have, the drawing of the graph is
well quoted, and nodes that show different texts have different labels. -/
theorem wellQuoted_of_reachable (reachable : graph.Reachable)
    (oneRoot : graph.nodes.countP (·.kind == .astRoot) = 1) (verbose : Bool) :
    (∃ document, Document.ofGraph graph = .ok document ∧ WellQuoted graph verbose document) ∧
      ∀ first ∈ graph.nodes, ∀ second ∈ graph.nodes,
        first.displayText ≠ second.displayText → label false first ≠ label false second := by
  constructor
  · obtain ⟨root, member, only, -⟩ | ⟨-, several⟩ := graph.root_eq
    · obtain ⟨document, drawn, all, edges⟩ := ofGraph_eq_ok reachable.invariant member only
      exact ⟨document, drawn, wellQuoted_of_perm reachable.invariant all edges verbose⟩
    · exact absurd oneRoot several
  · intro first _ second _ differ same
    exact differ (escape_injective same)

/-- A graph whose texts look like parts of a drawing: one of them closes its label, ends
its line and goes on with an edge, and both end in a backslash. -/
def deceitful : Graph :=
  Operation.runAll (.empty "deceitful" {})
    [.create .astRoot "\"];\r\n 1 -> 0 [ ];\t\\" 0 1 10, .createDetached .token "\\" 0 1,
      .addEdge ⟨0, 1, .astChild⟩]

theorem reachable_deceitful : deceitful.Reachable :=
  (Graph.Reachable.empty _ _).runAll _

theorem wellQuoted_deceitful :
    deceitful.Reachable ∧ deceitful.nodes.countP (·.kind == .astRoot) = 1 ∧
      deceitful.nodes.map (·.contents) = ["\"];\r\n 1 -> 0 [ ];\t\\", "\\"] ∧
      (∃ document, Document.ofGraph deceitful = .ok document ∧
        WellQuoted deceitful true document) ∧
      ∀ first ∈ deceitful.nodes, ∀ second ∈ deceitful.nodes,
        first.displayText ≠ second.displayText → label false first ≠ label false second :=
  ⟨reachable_deceitful, by decide, by decide,
    wellQuoted_of_reachable reachable_deceitful (by decide) true⟩

end ProgramGraph.Dot
