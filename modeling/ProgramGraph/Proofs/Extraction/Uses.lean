import ProgramGraph.Proofs.Extraction.Emission
import ProgramGraph.Proofs.Extraction.Reachable

/-!
# The last use of an identifier

A pass over lexemes links the node of an identifier back to the last node before it that stands
for an identifier with the same text.  The table that the pass carries along answers, for each
text, with just that node.  So the links lead from each use of an identifier to all earlier ones,
one after the other and the latest first.
-/

namespace ProgramGraph

open Source

/-! ## Last uses in a list of nodes -/

/-- A node stands for an identifier with this text. -/
def Node.uses (node : Node) (text : String) : Bool :=
  node.kind == .identifierToken && node.contents == text

/-- The last node of a list that stands for an identifier with this text. -/
def lastUse? (nodes : List Node) (text : String) : Option Node :=
  nodes.reverse.find? (·.uses text)

/-- A node stands for an identifier, and another one is the last before it that stands for an
identifier with the same text. -/
def IsLastUse (nodes : List Node) (user earlier : Node) : Prop :=
  ∃ before between after, nodes = before ++ earlier :: between ++ user :: after ∧
    user.kind = .identifierToken ∧ earlier.uses user.contents ∧
      ∀ node ∈ between, ¬node.uses user.contents

/-- The link back from a node to the last use of its identifier before it. -/
def useLink (before : List Node) (node : Node) : Option Edge :=
  if node.kind = .identifierToken then
    (lastUse? before node.contents).map (⟨node.id, ·.id, .lastLexicalUse⟩)
  else none

/-- The links back from nodes that come after others. -/
def useLinksAfter (before : List Node) : List Node → List Edge
  | [] => []
  | node :: rest => (useLink before node).toList ++ useLinksAfter (before ++ [node]) rest

section Nodes

variable {nodes before after : List Node} {node : Node} {text : String} {edge : Edge}

theorem lastUse?_concat (nodes : List Node) (node : Node) (text : String) :
    lastUse? (nodes ++ [node]) text =
      if node.uses text then some node else lastUse? nodes text := by
  rw [lastUse?, List.reverse_append, List.reverse_singleton, List.singleton_append,
    List.find?_cons]
  cases node.uses text <;> rfl

theorem lastUse?_eq_some_iff :
    lastUse? nodes text = some node ↔
      node.uses text ∧ ∃ before between, nodes = before ++ node :: between ∧
        ∀ other ∈ between, ¬other.uses text := by
  rw [lastUse?, List.find?_eq_some_iff_append]
  constructor
  · rintro ⟨uses, between, before, split, unused⟩
    rw [List.reverse_eq_iff] at split
    refine ⟨uses, before.reverse, between.reverse, by simp [split], ?_⟩
    intro other member
    simpa using unused other (List.mem_reverse.mp member)
  · rintro ⟨uses, before, between, rfl, unused⟩
    refine ⟨uses, between.reverse, before.reverse, by simp, ?_⟩
    intro other member
    simpa using unused other (List.mem_reverse.mp member)

theorem lastUse?_eq_none (unused : ∀ node ∈ nodes, ¬node.uses text) :
    lastUse? nodes text = none :=
  List.find?_eq_none.mpr fun node member => unused node (List.mem_reverse.mp member)

theorem useLink_eq_some_iff :
    useLink before node = some edge ↔ node.kind = .identifierToken ∧
      ∃ earlier, lastUse? before node.contents = some earlier ∧
        edge = ⟨node.id, earlier.id, .lastLexicalUse⟩ := by
  rw [useLink, Option.ite_none_right_eq_some, Option.map_eq_some_iff]
  simp only [eq_comm]

theorem useLinksAfter_append (before first rest : List Node) :
    useLinksAfter before (first ++ rest) =
      useLinksAfter before first ++ useLinksAfter (before ++ first) rest := by
  induction first generalizing before with
  | nil => rw [List.append_nil]; rfl
  | cons node first ih =>
      rw [List.cons_append, useLinksAfter, useLinksAfter, ih, List.append_assoc, List.append_assoc,
        List.singleton_append]

/-- At most one link leaves each of the nodes. -/
theorem sources_useLinksAfter (before nodes : List Node) :
    ((useLinksAfter before nodes).map (·.source)).Sublist (nodes.map (·.id)) := by
  induction nodes generalizing before with
  | nil => exact .slnil
  | cons node rest ih =>
      rw [useLinksAfter, List.map_append, List.map_cons]
      cases linked : useLink before node with
      | none => exact (ih _).cons _
      | some edge =>
          rcases useLink_eq_some_iff.mp linked with ⟨-, earlier, -, rfl⟩
          exact (ih _).cons_cons _

theorem mem_useLinksAfter :
    edge ∈ useLinksAfter before nodes ↔ ∃ first node rest, nodes = first ++ node :: rest ∧
      useLink (before ++ first) node = some edge := by
  induction nodes generalizing before with
  | nil => simp [useLinksAfter]
  | cons node rest ih =>
      rw [useLinksAfter, List.mem_append, Option.mem_toList, ih]
      constructor
      · rintro (here | ⟨first, other, later, rfl, linked⟩)
        · exact ⟨[], node, rest, rfl, (List.append_nil before).symm ▸ here⟩
        · refine ⟨node :: first, other, later, rfl, ?_⟩
          rwa [List.append_assoc] at linked
      · rintro ⟨first, other, later, split, linked⟩
        cases first with
        | nil =>
            rw [List.nil_append, List.cons.injEq] at split
            rcases split with ⟨rfl, rfl⟩
            exact .inl (List.append_nil before ▸ linked)
        | cons head first =>
            rw [List.cons_append, List.cons.injEq] at split
            rcases split with ⟨rfl, rfl⟩
            exact .inr ⟨first, other, later, rfl, by rwa [List.append_assoc]⟩

/-- The links back are those from the uses of identifiers to the last uses before them. -/
theorem mem_useLinksAfter_nil :
    edge ∈ useLinksAfter [] nodes ↔ ∃ user earlier, IsLastUse nodes user earlier ∧
      edge = ⟨user.id, earlier.id, .lastLexicalUse⟩ := by
  simp only [mem_useLinksAfter, List.nil_append, useLink_eq_some_iff, lastUse?_eq_some_iff]
  constructor
  · rintro ⟨_, user, after, rfl, identifier, earlier, ⟨uses, before, between, rfl, unused⟩, rfl⟩
    exact ⟨user, earlier, ⟨before, between, after, rfl, identifier, uses, unused⟩, rfl⟩
  · rintro ⟨user, earlier, ⟨before, between, after, rfl, identifier, uses, unused⟩, rfl⟩
    exact ⟨_, user, after, rfl, identifier, earlier, ⟨uses, before, between, rfl, unused⟩, rfl⟩

/-- Where the nodes have ids of their own, the links that leave one of them are its own. -/
theorem filter_useLinksAfter (distinct : ((before ++ node :: after).map (·.id)).Nodup) :
    (useLinksAfter [] (before ++ node :: after)).filter (·.source == node.id) =
      (useLink before node).toList := by
  have away {first others : List Node} (apart : node.id ∉ others.map (·.id)) :
      (useLinksAfter first others).filter (·.source == node.id) = [] := by
    apply List.filter_eq_nil_iff.mpr
    intro edge member same
    apply apart
    have listed := List.mem_map_of_mem (f := (·.source)) member
    exact eq_of_beq same ▸ (sources_useLinksAfter first others).subset listed
  rw [List.map_append, List.map_cons, List.nodup_middle, List.nodup_cons, List.mem_append,
    not_or] at distinct
  rw [useLinksAfter_append, useLinksAfter, List.filter_append, List.filter_append,
    away distinct.1.1, away distinct.1.2, List.nil_append, List.append_nil, List.nil_append]
  apply List.filter_eq_self.mpr
  intro edge member
  rcases useLink_eq_some_iff.mp (Option.mem_toList.mp member) with ⟨-, earlier, -, rfl⟩
  exact beq_self_eq_true _

end Nodes

/-! ## The table of last uses -/

namespace TokenPass

variable {start graph : Graph} {documents : List Span} {lexemes : List Lexeme}
  {added : List Node} {links : List Edge} {pass : TokenPass}

/-- The table of a pass answers with the last uses among the nodes that it has added, and the
links back from these nodes are drawn. -/
structure Remembers (start : Graph) (added : List Node) (pass : TokenPass) : Prop where
  lastUse : ∀ text, pass.lastUse.get? text = (lastUse? added text).map (·.id)
  links : pass.graph.edgesOfKind .lastLexicalUse =
    start.edgesOfKind .lastLexicalUse ++ useLinksAfter [] added

theorem remembers_start (start : Graph) : Remembers start [] { graph := start } where
  lastUse _ := rfl
  links := (List.append_nil _).symm

theorem uses_nodeOf (pass : TokenPass) (lexeme : Lexeme) (text : String) :
    (pass.nodeOf lexeme).uses text =
      (lexeme.nodeKind == .identifierToken && lexeme.text == text) :=
  rfl

/-- The link back that comes with a lexeme is that of its node. -/
theorem Remembers.useLinks_eq (remembers : Remembers start added pass) (lexeme : Lexeme) :
    pass.useLinks lexeme = (useLink added (pass.nodeOf lexeme)).toList := by
  rw [useLinks, useLink, remembers.lastUse, Option.map_map]
  show _ = (if lexeme.nodeKind = .identifierToken then _ else _ : Option Edge).toList
  split
  · rfl
  · rfl

theorem Remembers.next (remembers : Remembers start added pass) (lexeme : Lexeme) :
    Remembers start (added ++ [pass.nodeOf lexeme]) (pass.next lexeme) := by
  constructor
  case lastUse =>
    intro text
    rw [lastUse?_concat, TokenPass.next, uses_nodeOf]
    by_cases identifier : lexeme.nodeKind = .identifierToken
    · by_cases same : lexeme.text = text
      · simp [identifier, same, nodeOf, Graph.freshNode]
      · simp [identifier, same, remembers.lastUse]
    · simp [identifier, remembers.lastUse]
  case links =>
    have old : (pass.graph.pushNode (pass.nodeOf lexeme)).edges = pass.graph.edges := rfl
    have before := remembers.links
    rw [Graph.edgesOfKind] at before
    rw [TokenPass.next, Graph.edgesOfKind, Graph.edges_pushEdges, List.filter_append, old, before,
      (filter_links pass lexeme).2, remembers.useLinks_eq, useLinksAfter_append, List.append_assoc]
    simp [useLinksAfter]

/-! ## Following the links -/

end TokenPass

namespace Graph

/-- The links to last uses lead from a node to these nodes, one after the other, and no further. -/
def LeadsBack (graph : Graph) (token : Node) : List Node → Prop
  | [] => graph.successors token.id (some [.lastLexicalUse]) = .ok []
  | earlier :: rest =>
      graph.successors token.id (some [.lastLexicalUse]) = .ok [earlier] ∧
        graph.LeadsBack earlier rest

end Graph

namespace TokenPass

variable {start graph : Graph} {documents : List Span} {lexemes : List Lexeme}
  {added before after : List Node} {token : Node} {links : List Edge} {pass : TokenPass}
  {text : String}

/-- The links back that new nodes have, and where they lead. -/
structure LinksUses (start graph : Graph) (added : List Node) : Prop where
  /-- The new links lead from each identifier to the last one before it with its text, and there
  is one link for each such pair. -/
  links : ∃ uses,
    graph.edgesOfKind .lastLexicalUse = start.edgesOfKind .lastLexicalUse ++ uses ∧
      uses.Nodup ∧ ∀ edge, edge ∈ uses ↔ ∃ user earlier, IsLastUse added user earlier ∧
        edge = ⟨user.id, earlier.id, .lastLexicalUse⟩
  /-- From an identifier they lead to all identifiers before it with its text, the latest first. -/
  back : ∀ before token after, added = before ++ token :: after →
    token.kind = .identifierToken →
      graph.LeadsBack token (before.filter (·.uses token.contents)).reverse

/-- The links back that leave a node that was added are its own. -/
theorem Remembers.edgesFrom_eq (remembers : Remembers start (before ++ token :: after) pass)
    (emits : Emits start lexemes pass.graph (before ++ token :: after) links)
    (invariant : start.Invariant) :
    pass.graph.edgesFrom token.id (some [.lastLexicalUse]) = (useLink before token).toList := by
  have member : token ∈ before ++ token :: after := List.mem_append_right _ (.head _)
  have none := invariant.edgesFrom_of_not_contains .lastLexicalUse
    (emits.not_contains invariant member)
  have ofKind {graph : Graph} : graph.edgesFrom token.id (some [.lastLexicalUse]) =
      (graph.edgesOfKind .lastLexicalUse).filter (·.source == token.id) := by
    rw [Graph.edgesFrom, Graph.edgesOfKind, List.filter_filter]
    simp [Graph.admits, Bool.beq_eq_decide_eq]
  rw [ofKind] at none ⊢
  rw [remembers.links, List.filter_append, none, filter_useLinksAfter emits.nodup_ids,
    List.nil_append]

/-- The link back from a use of an identifier leads to the last use before it. -/
theorem Remembers.successors_eq (remembers : Remembers start (before ++ token :: after) pass)
    (emits : Emits start lexemes pass.graph (before ++ token :: after) links)
    (invariant : start.Invariant) (invariantAfter : pass.graph.Invariant)
    (uses : token.uses text) :
    pass.graph.successors token.id (some [.lastLexicalUse]) =
      .ok (lastUse? before text).toList := by
  have present {node : Node} (member : node ∈ before ++ token :: after) :
      pass.graph.node? node.id = some node := by
    apply invariantAfter.node?_eq_some_iff.mpr
    rw [emits.extended.nodes]
    exact ⟨List.mem_append_right _ member, rfl⟩
  have found := present (List.mem_append_right _ (.head _))
  rw [Node.uses, Bool.and_eq_true, beq_iff_eq, beq_iff_eq] at uses
  rcases uses with ⟨identifier, rfl⟩
  rw [invariantAfter.successors_eq (Graph.contains_of_node? found),
    remembers.edgesFrom_eq emits invariant, useLink, if_pos identifier]
  cases used : lastUse? before token.contents with
  | none => rfl
  | some earlier =>
      rcases lastUse?_eq_some_iff.mp used with ⟨-, first, between, rfl, -⟩
      have earlierFound := present (List.mem_append_left _ (List.mem_append_right _ (.head _)))
      simp [List.eraseDups_cons, earlierFound]

/-- From a use of an identifier the links lead back through the uses among the nodes before it,
where some of these are known to be none. -/
theorem Remembers.leadsBack (remembers : Remembers start added pass)
    (emits : Emits start lexemes pass.graph added links)
    (invariant : start.Invariant) (invariantAfter : pass.graph.Invariant)
    (earlier between after : List Node) (split : added = earlier ++ (between ++ token :: after))
    (uses : token.uses text) (unused : ∀ node ∈ between, ¬node.uses text) :
    pass.graph.LeadsBack token (earlier.filter (·.uses text)).reverse := by
  induction earlier using List.reverseRecOn generalizing token between after with
  | nil =>
      subst split
      have step := remembers.successors_eq emits invariant invariantAfter uses
      rw [lastUse?_eq_none unused] at step
      exact step
  | append_singleton earlier node ih =>
      rw [List.append_assoc, List.singleton_append] at split
      by_cases here : node.uses text
      · have further := ih [] (between ++ token :: after) split here nofun
        rw [← List.cons_append, ← List.append_assoc] at split
        subst split
        have step := remembers.successors_eq emits invariant invariantAfter uses
        rw [lastUse?_eq_some_iff.mpr ⟨here, earlier, between, rfl, unused⟩] at step
        rw [List.filter_append, List.filter_singleton, here, List.reverse_append]
        exact ⟨step, further⟩
      · rw [List.filter_append, List.filter_singleton, Bool.eq_false_iff.mpr here]
        have none : ∀ other ∈ node :: between, ¬other.uses text :=
          List.forall_mem_cons.mpr ⟨here, unused⟩
        simpa using ih (node :: between) after split uses none

theorem Remembers.linksUses (remembers : Remembers start added pass)
    (emits : Emits start lexemes pass.graph added links)
    (invariant : start.Invariant) (invariantAfter : pass.graph.Invariant) :
    LinksUses start pass.graph added := by
  constructor
  case links =>
    have distinct := emits.nodup_ids.sublist (sources_useLinksAfter [] added)
    exact ⟨_, remembers.links, distinct.of_map, fun edge => mem_useLinksAfter_nil⟩
  case back =>
    intro before token after split identifier
    have uses : token.uses token.contents := by simp [Node.uses, identifier]
    exact remembers.leadsBack emits invariant invariantAfter before [] after split uses nofun

/-- A pass over lexemes links each identifier that it adds back to the last one before it with the
same text, so the links lead from an identifier to all earlier ones, the latest first. -/
theorem linksUses_of_reachable (reachable : start.Reachable) (documents : List Span)
    (lexemes : List Lexeme) :
    ∃ pass added links, run start documents lexemes = .ok pass ∧
      Emits start (lexemes.filter fun lexeme => !isDocumented documents lexeme.span) pass.graph
        added links ∧
      LinksUses start pass.graph added := by
  have passed := (run_eq_ok start documents lexemes).1
  rcases exists_foldl_next
    (fun done added links pass => Numbered start done added links pass ∧
      Remembers start added pass)
    (fun lexeme holds => ⟨holds.1.next lexeme, holds.2.next lexeme⟩)
    (lexemes.filter fun lexeme => !isDocumented documents lexeme.span)
    ⟨numbered_start start, remembers_start start⟩ with ⟨added, links, numbered, remembers⟩
  have emits := numbered.emits
  have invariantAfter := (reachable_run reachable passed).invariant
  exact ⟨_, added, links, passed, emits,
    remembers.linksUses emits reachable.invariant invariantAfter⟩

/-- Three uses of an identifier in code, with another identifier, a keyword and a comment between
them. -/
theorem linksUses_between_comments :
    Graph.sample.Reachable ∧
      ∃ pass added links,
        run Graph.sample [⟨4, 9⟩]
          [.leaf ⟨.word, "a", ⟨0, 1⟩⟩, .leaf ⟨.word, "fn", ⟨1, 3⟩⟩, .leaf ⟨.word, "b", ⟨3, 4⟩⟩,
            .leaf ⟨.word, "a", ⟨5, 6⟩⟩, .leaf ⟨.word, "a", ⟨9, 10⟩⟩,
            .leaf ⟨.word, "fn", ⟨11, 13⟩⟩, .leaf ⟨.word, "a", ⟨13, 14⟩⟩] = .ok pass ∧
        Emits Graph.sample
          [.leaf ⟨.word, "a", ⟨0, 1⟩⟩, .leaf ⟨.word, "fn", ⟨1, 3⟩⟩, .leaf ⟨.word, "b", ⟨3, 4⟩⟩,
            .leaf ⟨.word, "a", ⟨9, 10⟩⟩, .leaf ⟨.word, "fn", ⟨11, 13⟩⟩,
            .leaf ⟨.word, "a", ⟨13, 14⟩⟩] pass.graph added links ∧
        LinksUses Graph.sample pass.graph added :=
  ⟨Graph.reachable_sample, linksUses_of_reachable Graph.reachable_sample _ _⟩

end TokenPass

end ProgramGraph
