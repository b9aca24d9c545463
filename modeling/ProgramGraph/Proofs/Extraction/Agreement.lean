import ProgramGraph.Proofs.Extraction.Coordinates
import ProgramGraph.Proofs.Extraction.Links
import ProgramGraph.Proofs.Source.Shift

/-!
# One file, two readings

A file is read for its lexemes as a whole, and for its syntax without what stands at its front.
Both readings see the same lexemes if nothing but a byte order mark stands there.  The reading
for lexemes does not know of interpreters: it takes the line that names one for source text, and
then either fails on it or puts tokens before the syntax.  And it does not know that a second
byte order mark may be passed over, once one was passed over before it.
-/

namespace ProgramGraph

open Source

/-! ## Plain files -/

namespace SourceText

variable {source : SourceText} {front : List Char} {text : String}

/-- The first line of a file names no interpreter, and no two byte order marks are left at its
front. -/
structure IsPlain (source : SourceText) : Prop where
  noInterpreter : namesInterpreter (dropByteOrderMark source.chars) = false
  fewMarks : ¬[byteOrderMark, byteOrderMark] <+: source.chars

theorem dropByteOrderMark_of_unmarked {chars : List Char}
    (unmarked : chars.head? ≠ some byteOrderMark) : dropByteOrderMark chars = chars := by
  cases chars with
  | nil => rfl
  | cons c rest =>
      rw [dropByteOrderMark, if_neg]
      simpa using unmarked

/-- Of a plain file nothing is passed over for syntax, or one byte order mark. -/
theorem IsPlain.syntaxChars_eq (plain : (ofString text).IsPlain) :
    (ofString text).syntaxChars.head? ≠ some byteOrderMark ∧
      ((ofString text).chars = (ofString text).syntaxChars ∨
        (ofString text).chars = byteOrderMark :: (ofString text).syntaxChars) := by
  have kept : (ofString text).syntaxChars = dropByteOrderMark (ofString text).chars := by
    change dropInterpreter (dropByteOrderMark (ofString text).chars) = _
    rw [dropInterpreter, plain.noInterpreter]
    rfl
  have few := plain.fewMarks
  rw [kept]
  generalize (ofString text).chars = chars at few ⊢
  by_cases marked : chars.head? = some byteOrderMark
  · rcases List.head?_eq_some_iff.mp marked with ⟨rest, rfl⟩
    have dropped : dropByteOrderMark (byteOrderMark :: rest) = rest := rfl
    rw [dropped]
    refine ⟨?_, .inr rfl⟩
    intro again
    rcases List.head?_eq_some_iff.mp again with ⟨rest, rfl⟩
    exact few ⟨rest, rfl⟩
  · rw [dropByteOrderMark_of_unmarked marked]
    exact ⟨marked, .inl rfl⟩

/-- Syntax behind a line that names an interpreter begins with the end of that line. -/
theorem follows_of_interpreter
    (named : namesInterpreter (dropByteOrderMark (ofString text).chars)) :
    ∃ mark rest, (ofString text).chars = mark ++ '#' :: '!' :: rest ∧
      (mark = [] ∨ mark = [byteOrderMark]) ∧
      (ofString text).syntaxChars = rest.dropWhile (· != '\n') := by
  have syntaxEq : (ofString text).syntaxChars =
      (dropByteOrderMark (ofString text).chars).dropWhile (· != '\n') := by
    change dropInterpreter (dropByteOrderMark (ofString text).chars) = _
    rw [dropInterpreter, if_pos named]
  have front : ∃ mark, (ofString text).chars =
      mark ++ dropByteOrderMark (ofString text).chars ∧ (mark = [] ∨ mark = [byteOrderMark]) := by
    generalize (ofString text).chars = chars
    cases chars with
    | nil => exact ⟨[], rfl, .inl rfl⟩
    | cons c rest =>
        rw [dropByteOrderMark]
        split
        · next marked => exact ⟨[byteOrderMark], by rw [eq_of_beq marked]; rfl, .inr rfl⟩
        · exact ⟨[], rfl, .inl rfl⟩
  rcases front with ⟨mark, split, isMark⟩
  rw [syntaxEq]
  generalize dropByteOrderMark (ofString text).chars = chars at named split ⊢
  unfold namesInterpreter at named
  split at named
  · next rest => exact ⟨mark, rest, split, isMark, rfl⟩
  · cases named

end SourceText

/-! ## Tokens of plain files -/

/-- A node lies in the part of a file that is read for syntax. -/
def Node.LiesInSyntax (source : SourceText) (node : Node) : Prop :=
  source.chars.length - source.syntaxChars.length ≤ node.startPosition ∧
    node.endPosition ≤ source.chars.length
  deriving Decidable

/-- The tokens of a graph lie where the syntax does, and so do the ends of the links between
them. -/
structure SeesSyntax (source : SourceText) (graph : Graph) : Prop where
  tokens : ∀ token ∈ graph.tokens, token.LiesInSyntax source
  links : ∀ edge ∈ graph.edges, edge.kind ∈ [EdgeKind.nextToken, .lastLexicalUse] →
    ∃ first ∈ graph.tokens, ∃ next ∈ graph.tokens, first.id = edge.source ∧
      next.id = edge.target ∧ first.LiesInSyntax source ∧ next.LiesInSyntax source

/-- It is enough that the tokens do. -/
theorem Graph.Planted.seesSyntax {graph : Graph} {source : SourceText} (planted : graph.Planted)
    (tokens : ∀ token ∈ graph.tokens, token.LiesInSyntax source) : SeesSyntax source graph where
  tokens := tokens
  links edge live isLink := by
    have ends := planted.fits edge live
    have isToken {id : NodeId} (has : graph.HasKind id [.token, .identifierToken]) :
        ∃ token ∈ graph.tokens, token.id = id := by
      obtain ⟨node, member, same, kind⟩ := has
      exact ⟨node, mem_nodesOfKind.mpr ⟨member, kind⟩, same⟩
    have kinds : edge.kind.sources ⊆ [.token, .identifierToken] ∧
        edge.kind.targets ⊆ [.token, .identifierToken] := by
      rcases List.mem_pair.mp isLink with same | same <;> rw [same] <;> decide
    rcases isToken (ends.1.mono kinds.1) with ⟨first, firstIn, firstSame⟩
    rcases isToken (ends.2.mono kinds.2) with ⟨next, nextIn, nextSame⟩
    exact ⟨first, firstIn, next, nextIn, firstSame, nextSame, tokens first firstIn,
      tokens next nextIn⟩

namespace Extraction

variable {placement : Placement} {prune : Bool} {fileName text : String}
  {outlines : List Outline} {lexemes : List Lexeme} {extraction : Extraction}

/-- Both readings of a plain file succeed or fail together. -/
theorem exists_lexemesOf_of_plain (plain : (SourceText.ofString text).IsPlain)
    (parsed : outlineOf (.ofString text) = .ok outlines) :
    ∃ lexemes, lexemesOf (.ofString text) = .ok lexemes := by
  rcases trees_of_outlineOf parsed with ⟨trees, grouped, -⟩
  rcases plain.syntaxChars_eq with ⟨unmarked, same | behind⟩
  · refine ⟨TokenTree.flatten trees, ?_⟩
    rw [lexemesOf, same, grouped]
  · rcases TokenTree.exists_ofText_byteOrderMark unmarked grouped with ⟨moved, again⟩
    refine ⟨TokenTree.flatten moved, ?_⟩
    rw [lexemesOf, behind, again]

/-- The brackets of a file that has lexemes match. -/
theorem trees_of_lexemesOf {source : SourceText} (cut : lexemesOf source = .ok lexemes) :
    ∃ trees, TokenTree.ofText source.chars = .ok trees := by
  rw [lexemesOf] at cut
  split at cut
  · next trees grouped => exact ⟨trees, grouped⟩
  · cases cut

/-- The number sign that names an interpreter is a lexeme of the file. -/
theorem exists_sign_of_interpreter {mark rest : List Char}
    (chars : (SourceText.ofString text).chars = mark ++ '#' :: '!' :: rest)
    (isMark : mark = [] ∨ mark = [byteOrderMark]) (cut : lexemesOf (.ofString text) = .ok lexemes) :
    ∃ lexeme ∈ lexemes, lexeme.span.first = mark.length := by
  have sign (position : Nat) : .leaf ⟨.mark true, "#", ⟨position, position + 1⟩⟩ ∈
      (piecesFrom 0 position ('#' :: '!' :: rest)).flatMap Piece.lexemes := by
    rw [piecesFrom, Chunk.next?_sign, List.flatMap_cons]
    exact List.mem_append_left _ (.head _)
  rw [eq_of_lexemesOf cut, chars]
  rcases isMark with rfl | rfl
  · exact ⟨_, sign 0, rfl⟩
  · exact ⟨_, sign 1, rfl⟩

/-- The lexemes of a plain file lie in its syntax. -/
theorem bounds_of_plain (plain : (SourceText.ofString text).IsPlain)
    (cut : lexemesOf (.ofString text) = .ok lexemes) {lexeme : Lexeme}
    (member : lexeme ∈ lexemes) :
    (SourceText.ofString text).chars.length - (SourceText.ofString text).syntaxChars.length ≤
        lexeme.span.first ∧
      lexeme.span.last ≤ (SourceText.ofString text).chars.length := by
  rw [eq_of_lexemesOf cut] at member
  refine ⟨?_, last_le_of_mem_lexemes member⟩
  rcases plain.syntaxChars_eq with ⟨-, same | behind⟩
  · rw [same, Nat.sub_self]
    exact Nat.zero_le _
  · have positive : 0 < lexeme.span.first := by
      apply first_pos_of_mem_lexemes (.inr _) member
      rw [behind]
      rfl
    rw [behind, List.length_cons]
    omega

/-- No documentation of a file reaches back to the line that names an interpreter. -/
theorem not_isDocumented_of_interpreter {front : List Char} {span : Span}
    (follows : (SourceText.ofString text).Follows front)
    (begins : ∀ c, (SourceText.ofString text).syntaxChars.head? = some c → c = '\n')
    (parsed : outlineOf (.ofString text) = .ok outlines) (before : span.first < front.length) :
    ¬TokenPass.isDocumented
      ((Outline.documentsAll outlines).map (SourceText.ofString text).carrySpan) span := by
  intro documented
  rcases TokenPass.exists_within_of_isDocumented documented with ⟨place, member, reaches, -⟩
  rcases List.mem_map.mp member with ⟨document, listed, rfl⟩
  rcases trees_of_outlineOf parsed with ⟨trees, grouped, outlined⟩
  have marked := Outline.marked_of_outline grouped outlined
  rcases marked.documents document listed with ⟨lexeme, inTrees, first⟩
  rw [TokenTree.flatten_of_ofText grouped] at inTrees
  cases text : (SourceText.ofString text).syntaxChars.head? with
  | none =>
      rw [List.head?_eq_none_iff.mp text] at inTrees
      cases inTrees
  | some c =>
      rw [begins c text] at text
      have behind := first_pos_of_mem_lexemes (.inl text) inTrees
      have carried := follows.carry_of_lineFeed text (first ▸ behind)
      change (SourceText.ofString _).carry document.first ≤ span.first at reaches
      omega

/-- The line that names an interpreter has a lexeme that is no documentation, in front of all
syntax. -/
theorem exists_stray_of_interpreter
    (named : SourceText.namesInterpreter
      (SourceText.dropByteOrderMark (SourceText.ofString text).chars))
    (parsed : outlineOf (.ofString text) = .ok outlines)
    (cut : lexemesOf (.ofString text) = .ok lexemes) :
    ∃ sign ∈ undocumented
        ((Outline.documentsAll outlines).map (SourceText.ofString text).carrySpan) lexemes,
      sign.span.first + (SourceText.ofString text).syntaxChars.length <
        (SourceText.ofString text).chars.length := by
  rcases SourceText.follows_of_interpreter named with ⟨mark, rest, chars, isMark, kept⟩
  rcases SourceText.exists_follows_ofString text with ⟨front, follows⟩
  have shorter : (rest.dropWhile (· != '\n')).length ≤ rest.length :=
    (List.dropWhile_sublist _).length_le
  have lengths := congrArg List.length follows.chars
  rw [List.length_append, kept] at lengths
  have total := congrArg List.length chars
  simp only [List.length_append, List.length_cons] at total
  rcases exists_sign_of_interpreter chars isMark cut with ⟨sign, inLexemes, first⟩
  have hidden : ¬TokenPass.isDocumented
      ((Outline.documentsAll outlines).map (SourceText.ofString text).carrySpan) sign.span := by
    apply not_isDocumented_of_interpreter follows _ parsed (by omega)
    intro c begins
    rw [kept] at begins
    have stops := List.head?_dropWhile_not (· != '\n') rest
    rw [begins] at stops
    simpa using stops
  refine ⟨sign, List.mem_filter.mpr ⟨inLexemes, by simpa using hidden⟩, ?_⟩
  rw [kept]
  omega

/-- A plain file that has syntax is accepted, and its tokens lie in that syntax. -/
theorem exists_seesSyntax_of_plain {placement : Placement} {prune : Bool} {fileName : String}
    (distinct : placement.Separates text) (parsed : outlineOf (.ofString text) = .ok outlines)
    (plain : (SourceText.ofString text).IsPlain) :
    ∃ extraction, run placement prune fileName text = .ok extraction ∧
      SeesSyntax (.ofString text) extraction.graph := by
  rcases exists_lexemesOf_of_plain plain parsed with ⟨lexemes, cut⟩
  have outlined : (outlineOf (.ofString text)).isOk := by
    rw [parsed]
    rfl
  have lexed : (lexemesOf (.ofString text)).isOk := by
    rw [cut]
    rfl
  rcases accepted_of_read placement prune fileName text outlined lexed with
    ⟨extraction, -, accepted, -⟩
  refine ⟨extraction, accepted, ?_⟩
  rcases depicts_of_run distinct accepted with ⟨again, lexemes, -, cut, depicts⟩
  apply depicts.planted.seesSyntax
  intro token member
  rcases exists_of_mem_left depicts.tokens member with ⟨lexeme, shown, stands⟩
  have bounds := bounds_of_plain plain cut (List.mem_of_mem_filter shown)
  rw [← stands.span] at bounds
  exact bounds

/-- A file that has syntax is accepted, with tokens that lie in that syntax, just when it is
plain. -/
theorem seesSyntax_iff {placement : Placement} {prune : Bool} {fileName : String}
    (distinct : placement.Separates text) (parsed : outlineOf (.ofString text) = .ok outlines) :
    (∃ extraction, run placement prune fileName text = .ok extraction ∧
        SeesSyntax (.ofString text) extraction.graph) ↔ (SourceText.ofString text).IsPlain := by
  constructor
  · rintro ⟨extraction, accepted, sees⟩
    rcases depicts_of_run distinct accepted with ⟨again, lexemes, parsedAgain, cut, depicts⟩
    cases Except.ok.inj (parsed.symm.trans parsedAgain)
    constructor
    case fewMarks =>
      rintro ⟨rest, chars⟩
      rcases trees_of_lexemesOf cut with ⟨trees, grouped⟩
      rw [← chars] at grouped
      exact TokenTree.ofText_two_marks rest grouped
    case noInterpreter =>
      by_contra other
      have named := eq_true_of_ne_false other
      rcases exists_stray_of_interpreter named parsed cut with ⟨sign, shown, before⟩
      rcases exists_of_mem_right depicts.tokens shown with ⟨token, member, stands⟩
      have lies := (sees.tokens token member).1
      have place : token.startPosition = sign.span.first := congrArg Span.first stands.span
      omega
  · exact exists_seesSyntax_of_plain distinct parsed

/-- A function behind two byte order marks. -/
def twoMarks : String := "\uFEFF\uFEFFfn f() \x7b\x7d"

/-- Behind a first byte order mark a second one may stand. -/
theorem seesSyntax_two_marks :
    highPlacement.Separates twoMarks ∧
      (SourceText.ofString twoMarks).IsPlain ∧
      ∃ outlines extraction, outlineOf (.ofString twoMarks) = .ok outlines ∧
        run highPlacement true "a.rs" twoMarks = .ok extraction ∧
        SeesSyntax (.ofString twoMarks) extraction.graph := by
  have distinct : highPlacement.Separates twoMarks :=
    Placement.separates_of_all (by decide +kernel)
  have plain : (SourceText.ofString twoMarks).IsPlain := ⟨by decide +kernel, by decide +kernel⟩
  have outlined : (outlineOf (.ofString twoMarks)).isOk := by decide +kernel
  rcases exists_of_isOk outlined with ⟨outlines, parsed⟩
  rcases (seesSyntax_iff distinct parsed).mpr plain with ⟨extraction, accepted, sees⟩
  exact ⟨distinct, plain, outlines, extraction, parsed, accepted, sees⟩

/-- A function behind a line that names an interpreter. -/
def interpreted : String := "#!/usr/bin/env x\nfn f() \x7b\x7d"

/-- The first line of a file that names an interpreter has tokens, and so not all tokens lie in
the syntax, pruned or not. -/
theorem not_seesSyntax_interpreter :
    ∃ outlines plain pruned, outlineOf (.ofString interpreted) = .ok outlines ∧
      ofSource false "a.rs" interpreted = .ok plain ∧
      ofSource true "a.rs" interpreted = .ok pruned ∧
      ¬SeesSyntax (.ofString interpreted) plain.graph ∧
      ¬SeesSyntax (.ofString interpreted) pruned.graph := by
  have outlined : (outlineOf (.ofString interpreted)).isOk := by decide +kernel
  have outside (prune : Bool) : ∃ extraction,
      ofSource prune "a.rs" interpreted = .ok extraction ∧
        ¬SeesSyntax (.ofString interpreted) extraction.graph := by
    have found : (ofSource prune "a.rs" interpreted).toOption.any fun extraction =>
        extraction.graph.tokens.any fun token =>
          !decide (token.LiesInSyntax (.ofString interpreted)) := by
      cases prune <;> decide +kernel
    rcases exists_of_any found with ⟨extraction, accepted, stray⟩
    rcases List.any_eq_true.mp stray with ⟨token, member, outside⟩
    refine ⟨extraction, accepted, fun sees => ?_⟩
    simp [sees.tokens token member] at outside
  rcases exists_of_isOk outlined with ⟨outlines, parsed⟩
  rcases outside false with ⟨plain, accepted, plainOutside⟩
  rcases outside true with ⟨pruned, prunedAccepted, prunedOutside⟩
  exact ⟨outlines, plain, pruned, parsed, accepted, prunedAccepted, plainOutside, prunedOutside⟩

end Extraction

end ProgramGraph
