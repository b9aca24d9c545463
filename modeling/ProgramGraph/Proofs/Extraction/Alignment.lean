import ProgramGraph.Proofs.Extraction.Agreement
import ProgramGraph.Proofs.Extraction.Owners
import ProgramGraph.Proofs.Grammar.Extents

/-!
# Names and types in the text

The names and types of a file are found in its syntax, and the tokens in the file as a whole.  A
position of the syntax is carried over to the file by its line and column, so it is carried right
if it only moves by the length of what was passed over.  On the first line of a file with a second
byte order mark it does not.

Where positions are carried right and the lexemes of the syntax are lexemes of the file, each name
that is met and is no keyword is linked to the identifier that it is, and each type is shown as it
is written in the syntax.
-/

namespace ProgramGraph

open Source

/-! ## Files that are aligned -/

namespace SourceText

variable {source : SourceText} {front : List Char} {text : String} {position : Nat}
  {lexeme : Lexeme} {span : Span}

/-- How much of a file is passed over for syntax. -/
def passed (source : SourceText) : Nat :=
  source.chars.length - source.syntaxChars.length

/-- The syntax of a file stands in the file as it is: nothing is passed over, or the first line of
the syntax is empty; and the lexemes of the syntax are lexemes of the file, as they always are in
a plain file. -/
structure IsAligned (source : SourceText) : Prop where
  moves : source.passed = 0 ∨ source.syntaxChars.head? = some '\n'
  lexemes : ∀ lexeme ∈ (pieces source.syntaxChars).flatMap Piece.lexemes,
    lexeme.replace (Span.shift source.passed) ∈ (pieces source.chars).flatMap Piece.lexemes

theorem Follows.passed_eq (follows : source.Follows front) : source.passed = front.length := by
  rw [passed, follows.chars, List.length_append, Nat.add_sub_cancel]

/-- Positions from a lexeme on are moved by what is passed over. -/
theorem IsAligned.carry_eq (aligned : source.IsAligned) (follows : source.Follows front)
    (member : lexeme ∈ (pieces source.syntaxChars).flatMap Piece.lexemes)
    (behind : lexeme.span.first ≤ position) :
    source.carry position = position + source.passed := by
  rcases aligned.moves with none | empty
  · rw [follows.carry_eq, ← follows.passed_eq, none]
    exact ite_self position
  · have positive := first_pos_of_mem_lexemes (.inl empty) member
    rw [follows.carry_of_lineFeed empty (Nat.lt_of_lt_of_le positive behind), follows.passed_eq]

/-- A lexeme is carried over to where it stands in the file. -/
theorem IsAligned.carrySpan_eq (aligned : source.IsAligned) (follows : source.Follows front)
    (member : lexeme ∈ (pieces source.syntaxChars).flatMap Piece.lexemes) :
    source.carrySpan lexeme.span = lexeme.span.shift source.passed := by
  have positive := positive_of_mem_lexemes member
  rw [carrySpan, aligned.carry_eq follows member (Nat.le_refl _),
    aligned.carry_eq follows member (Nat.le_of_lt positive)]
  rfl

/-- In a plain file the lexemes of the syntax are lexemes of the file. -/
theorem IsPlain.isAligned (plain : (ofString text).IsPlain)
    (moves : (ofString text).passed = 0 ∨ (ofString text).syntaxChars.head? = some '\n') :
    (ofString text).IsAligned where
  moves := moves
  lexemes := by
    rcases plain.syntaxChars_eq with ⟨unmarked, same | behind⟩
    · have none : (ofString text).passed = 0 := by
        rw [passed, same, Nat.sub_self]
      intro lexeme member
      have unmoved : lexeme.replace (Span.shift 0) = lexeme := by
        cases lexeme <;> rfl
      rw [none, unmoved, same]
      exact member
    · have one : (ofString text).passed = 1 := by
        rw [passed, behind, List.length_cons, Nat.add_sub_cancel_left]
      have moved := lexemes_byteOrderMark unmarked
      rw [scan_fst, scan_fst, ← behind] at moved
      intro lexeme member
      rw [one, moved]
      exact List.mem_map_of_mem member

end SourceText

/-! ## Annotations -/

namespace Outline

variable {trees : List TokenTree} {span : Span}

mutual

/-- The types that patterns are given cover runs. -/
theorem covers_of_mem_annotations :
    (outline : Outline) → outline.Sound trees → span ∈ outline.annotations → Covers trees span
  | element _ _ attributes children, sound, member => by
      rcases List.mem_append.mp member with inAttributes | inChildren
      · exact covers_of_mem_annotationsAll attributes sound.2.1 inAttributes
      · exact covers_of_mem_annotationsAll children sound.2.2 inChildren
  | ascription attributes pattern type, sound, member => by
      rcases List.mem_append.mp member with inAttributes | inBoth
      · exact covers_of_mem_annotationsAll attributes sound.1 inAttributes
      rcases List.mem_append.mp inBoth with inPattern | inType
      · exact covers_of_mem_annotations pattern sound.2.1 inPattern
      rcases List.mem_append.mp inType with inside | whole
      · exact covers_of_mem_annotations type sound.2.2.1 inside
      · exact List.mem_singleton.mp whole ▸ sound.2.2.2

theorem covers_of_mem_annotationsAll :
    (outlines : List Outline) → SoundAll trees outlines → span ∈ annotationsAll outlines →
      Covers trees span
  | outline :: outlines, sound, member => by
      rcases List.mem_append.mp member with here | later
      · exact covers_of_mem_annotations outline sound.1 here
      · exact covers_of_mem_annotationsAll outlines sound.2 later

end

end Outline

/-! ## What a graph shows of the text -/

/-- The names and types of a graph are those of the syntax of a file, which was read from
`trees`. -/
structure ShowsSyntax (source : SourceText) (trees : List TokenTree) (outlines : List Outline)
    (met : List (NodeId × Span)) (graph : Graph) : Prop where
  /-- A name that is met is a word of the syntax.  If it is no keyword, the element that it
  belongs to is linked to an identifier with the text of that word. -/
  names : ∀ name ∈ met, ∃ text, .leaf ⟨.word, text, name.2⟩ ∈ TokenTree.flatten trees ∧
    (¬isKeyword text → ∃ token ∈ graph.tokens, token.kind = .identifierToken ∧
      token.contents = text ∧ ⟨name.1, token.id, .associatedToken⟩ ∈ graph.edges)
  /-- A type is written as an annotation is in the syntax, blanks apart. -/
  types : ∀ node ∈ graph.typeNodes, ∃ span ∈ Outline.annotationsAll outlines,
    Outline.Covers trees span ∧ node.contents =
      String.ofList (Unicode.squeeze ((source.syntaxChars.take span.last).drop span.first))

namespace Extraction

variable {source : SourceText} {trees : List TokenTree} {outlines : List Outline}
  {lexemes : List Lexeme} {elements : List Walk.Placed} {met : List (NodeId × Span)}
  {graph : Graph} {front : List Char} {text : String}

theorem mem_namesAll_of_mem_met {name : NodeId × Span}
    (owned : Walk.Owned elements (Outline.namesAll outlines) (Outline.repeatedAll outlines) name.2
      (Walk.ownersOf name.2 met))
    (member : name ∈ met) : name.2 ∈ Outline.namesAll outlines := by
  by_contra absent
  have none := (owned.eq_nil absent).1
  rw [Walk.ownersOf, List.map_eq_nil_iff, List.filter_eq_nil_iff] at none
  exact none name member (beq_self_eq_true _)

/-- A name is carried over to a place outside documentation. -/
theorem not_isDocumented_name {span : Span} (follows : source.Follows front)
    (marked : Outline.Marked lexemes outlines) (positive : span.first < span.last)
    (named : span ∈ Outline.namesAll outlines) :
    ¬TokenPass.isDocumented ((Outline.documentsAll outlines).map source.carrySpan)
      (source.carrySpan span) := by
  intro documented
  rcases TokenPass.exists_within_of_isDocumented documented with ⟨place, listed, begins, ends⟩
  rcases List.mem_map.mp listed with ⟨document, member, rfl⟩
  have first := follows.strictMono_carry.le_iff_le.mp begins
  have last := follows.strictMono_carry.le_iff_le.mp ends
  rcases marked.apart span named document member with before | after
  · omega
  · omega

/-- A name that is no keyword is found among the identifiers. -/
theorem Depicts.exists_identifierAt? {span : Span}
    (depicts : Depicts source outlines ((pieces source.chars).flatMap Piece.lexemes) elements met
      graph)
    (aligned : source.IsAligned) (follows : source.Follows front)
    (marked : Outline.Marked ((pieces source.syntaxChars).flatMap Piece.lexemes) outlines)
    (named : span ∈ Outline.namesAll outlines)
    (word : .leaf ⟨.word, text, span⟩ ∈ (pieces source.syntaxChars).flatMap Piece.lexemes)
    (free : ¬isKeyword text) :
    ∃ token, graph.identifierAt? (source.carrySpan span) = some token ∧ token.contents = text := by
  let lexeme := Lexeme.leaf ⟨.word, text, span⟩
  have carried : source.carrySpan span = span.shift source.passed :=
    aligned.carrySpan_eq follows word
  have shown := not_isDocumented_name follows marked (positive_of_mem_lexemes word) named
  have undocumentedWord : lexeme.replace (Span.shift source.passed) ∈
      undocumented ((Outline.documentsAll outlines).map source.carrySpan)
        ((pieces source.chars).flatMap Piece.lexemes) := by
    apply List.mem_filter.mpr
    rw [Lexeme.span_replace, show lexeme.span = span from rfl, ← carried]
    exact ⟨aligned.lexemes lexeme word, congrArg Bool.not (Bool.eq_false_iff.mpr shown)⟩
  rcases exists_of_mem_right depicts.tokens undocumentedWord with ⟨token, member, stands⟩
  have kind : token.kind = .identifierToken := by
    rw [stands.kind, Lexeme.nodeKind_replace]
    simp [lexeme, Lexeme.nodeKind, free]
  have placed : source.carrySpan span = ⟨token.startPosition, token.endPosition⟩ := by
    rw [carried, stands.first, stands.last, Lexeme.span_replace]
    rfl
  refine ⟨token, ?_, by rw [stands.contents, Lexeme.text_replace]; rfl⟩
  rw [placed]
  exact depicts.identifierAt?_eq member kind

/-- A name that is met and is found among the identifiers is linked to the one that it is. -/
theorem Depicts.link_of_met {owner : NodeId} {span : Span} {token : Node}
    (depicts : Depicts source outlines lexemes elements met graph) (listed : (owner, span) ∈ met)
    (found : graph.identifierAt? (source.carrySpan span) = some token) :
    ⟨owner, token.id, .associatedToken⟩ ∈ graph.edges := by
  have link : ⟨owner, token.id, .associatedToken⟩ ∈ linksOf source graph met := by
    apply List.mem_filterMap.mpr
    refine ⟨(owner, span), listed, ?_⟩
    rw [found]
    rfl
  rw [← depicts.links] at link
  exact List.mem_of_mem_filter link

/-- A type that covers a run shows what stands in the syntax there. -/
theorem slice_of_covers {span : Span} (aligned : source.IsAligned)
    (follows : source.Follows front) (found : TokenTree.ofText source.syntaxChars = .ok trees)
    (covers : Outline.Covers trees span) :
    source.slice (source.carrySpan span) =
      (source.syntaxChars.take span.last).drop span.first := by
  rcases covers with ⟨run, within, some, rfl⟩
  have bracketed := TokenTree.allBracketed_of_ofText found
  have inText : ∀ lexeme ∈ TokenTree.flatten run,
      lexeme ∈ (pieces source.syntaxChars).flatMap Piece.lexemes := by
    rw [← TokenTree.flatten_of_ofText found]
    exact (within.isInfix bracketed).subset
  rcases TokenTree.exists_ends_of_run (within.allBracketed bracketed) some with
    ⟨⟨first, firstIn, begins⟩, last, lastIn, ends⟩
  have positive := positive_of_mem_lexemes (inText last lastIn)
  apply follows.slice_eq
  · rw [← follows.passed_eq]
    exact aligned.carry_eq follows (inText first firstIn) begins.le
  · rw [← follows.passed_eq]
    exact aligned.carry_eq follows (inText last lastIn) (positive.le.trans ends.le)

/-- In the graph of an accepted source that is aligned, names and types are those of its syntax.
To be aligned is enough for that and not always needed: blanks alone may stand on the first line
behind a second mark, and a file without names and types shows them anyway. -/
theorem showsSyntax_of_run {placement : Placement} {prune : Bool} {fileName text : String}
    {extraction : Extraction} (distinct : placement.Separates text)
    (accepted : run placement prune fileName text = .ok extraction)
    (aligned : (SourceText.ofString text).IsAligned) :
    ∃ trees outlines, TokenTree.ofText (SourceText.ofString text).syntaxChars = .ok trees ∧
      Grammar.outline trees = .ok outlines ∧
      ShowsSyntax (.ofString text) trees outlines
        (Walk.metAll (.ofString text) 0 outlines (.atRoot (.ofString text) fileName))
        extraction.graph := by
  rcases depicts_of_run distinct accepted with ⟨outlines, lexemes, parsed, cut, depicts⟩
  rcases SourceText.exists_follows_ofString text with ⟨front, follows⟩
  rcases trees_of_outlineOf parsed with ⟨trees, found, outlined⟩
  have marked := Outline.marked_of_outline found outlined
  have held := Grammar.held_of_outline outlined
  have flat := TokenTree.flatten_of_ofText found
  cases eq_of_lexemesOf cut
  refine ⟨trees, outlines, found, outlined, ?_⟩
  constructor
  case names =>
    rintro ⟨owner, span⟩ member
    have named :=
      mem_namesAll_of_mem_met (Walk.owned_metAll _ 0 outlines _ (marked.once span)) member
    rcases marked.words span named with ⟨text, word⟩
    refine ⟨text, word, ?_⟩
    intro free
    rw [flat] at marked word
    rcases depicts.exists_identifierAt? aligned follows marked named word free with
      ⟨token, found, contents⟩
    rcases Graph.identifierAt?_eq_some found with ⟨inTokens, kind, -, -⟩
    exact ⟨token, inTokens, kind, contents, depicts.link_of_met member found⟩
  case types =>
    intro node member
    rcases depicts.types node member with ⟨span, annotated, shown⟩
    have covers := Outline.covers_of_mem_annotationsAll outlines held.sound.1 annotated
    refine ⟨span, annotated, covers, ?_⟩
    rw [shown.contents, slice_of_covers aligned follows found covers]

/-- A line for an interpreter and a function with a type on two lines. -/
def typeOnTwoLines : String := "#!/é\r\nfn f(x: Vec<\r\n u32>) \x7b\x7d"

/-- A file behind a line for an interpreter, with characters of several bytes, carriage returns and
a type on two lines. -/
theorem showsSyntax_interpreter :
    highPlacement.Separates typeOnTwoLines ∧
      (SourceText.ofString typeOnTwoLines).IsAligned ∧
      ∃ extraction, run highPlacement true "a.rs" typeOnTwoLines = .ok extraction ∧
        ∃ trees outlines,
          TokenTree.ofText (SourceText.ofString typeOnTwoLines).syntaxChars = .ok trees ∧
          Grammar.outline trees = .ok outlines ∧
          ShowsSyntax (.ofString typeOnTwoLines) trees outlines
            (Walk.metAll (.ofString typeOnTwoLines) 0 outlines
              (.atRoot (.ofString typeOnTwoLines) "a.rs"))
            extraction.graph := by
  have distinct : highPlacement.Separates typeOnTwoLines :=
    Placement.separates_of_all (by decide +kernel)
  have aligned : (SourceText.ofString typeOnTwoLines).IsAligned :=
    ⟨by decide +kernel, by decide +kernel⟩
  have succeeds : (run highPlacement true "a.rs" typeOnTwoLines).isOk := by decide +kernel
  rcases exists_of_isOk succeeds with ⟨extraction, accepted⟩
  exact ⟨distinct, aligned, extraction, accepted, showsSyntax_of_run distinct accepted aligned⟩

/-- A function with a type behind two byte order marks. -/
def typeBehindMarks : String := "\uFEFF\uFEFFfn f(x: u32) \x7b\x7d"

/-- Behind a second byte order mark the type on the first line is shown with other characters, and
no name is linked to an identifier, pruned or not. -/
theorem not_showsSyntax_two_marks :
    ∃ trees outlines plain pruned,
      TokenTree.ofText (SourceText.ofString typeBehindMarks).syntaxChars = .ok trees ∧
      Grammar.outline trees = .ok outlines ∧
      ofSource false "a.rs" typeBehindMarks = .ok plain ∧
      ofSource true "a.rs" typeBehindMarks = .ok pruned ∧
      ∀ graph ∈ [plain.graph, pruned.graph], graph.edgesOfKind .associatedToken = [] ∧
        ∀ met, ¬ShowsSyntax (.ofString typeBehindMarks) trees outlines met graph := by
  have outlined : (outlineOf (.ofString typeBehindMarks)).toOption.any
      fun outlines => Outline.annotationsAll outlines == [⟨8, 11⟩] := by
    decide +kernel
  have shown (prune : Bool) :
      (ofSource prune "a.rs" typeBehindMarks).toOption.any fun extraction =>
        extraction.graph.edgesOfKind .associatedToken == [] &&
          extraction.graph.typeNodes.any (·.contents == "u3") := by
    cases prune <;> decide +kernel
  have written : String.ofList (Unicode.squeeze
      (((SourceText.ofString typeBehindMarks).syntaxChars.take 11).drop 8)) = "u32" := by
    decide +kernel
  rcases exists_of_any outlined with ⟨outlines, parsed, annotations⟩
  have annotated : Outline.annotationsAll outlines = [⟨8, 11⟩] := eq_of_beq annotations
  rcases trees_of_outlineOf parsed with ⟨trees, found, isOutline⟩
  have fails (prune : Bool) : ∃ extraction,
      ofSource prune "a.rs" typeBehindMarks = .ok extraction ∧
        extraction.graph.edgesOfKind .associatedToken = [] ∧
        ∀ met, ¬ShowsSyntax (.ofString typeBehindMarks) trees outlines met
          extraction.graph := by
    rcases exists_of_any (shown prune) with ⟨extraction, accepted, both⟩
    rcases Bool.and_eq_true_iff.mp both with ⟨none, typed⟩
    refine ⟨extraction, accepted, eq_of_beq none, fun met shows => ?_⟩
    rcases List.any_eq_true.mp typed with ⟨node, member, contents⟩
    rcases shows.types node member with ⟨span, listed, -, same⟩
    rw [annotated, List.mem_singleton] at listed
    rw [listed, written, eq_of_beq contents] at same
    exact absurd same (by decide)
  rcases fails false with ⟨plain, accepted, plainFails⟩
  rcases fails true with ⟨pruned, prunedAccepted, prunedFails⟩
  exact ⟨trees, outlines, plain, pruned, found, isOutline, accepted, prunedAccepted,
    List.forall_mem_cons.mpr ⟨plainFails, List.forall_mem_singleton.mpr prunedFails⟩⟩

end Extraction

end ProgramGraph
