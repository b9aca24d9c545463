import ProgramGraph.Dot
import ProgramGraph.Proofs.Decimal

/-!
# Labels stay within their quotes

A label is read by one rule: a backslash takes the next character, and the first quote
that is not taken closes the label.  By this rule an escaped text is read back as it
was, up to the quote that was written after it, so nothing in a text can end its label
or begin anything else.  An escaped text has no line ends, so it cannot end its line
either.
-/

namespace ProgramGraph.Dot

/-! ## Reading -/

/-- What a character stands for after a backslash. -/
def unescapeChar : Char → Char
  | 'n' => '\n'
  | 'r' => '\r'
  | 't' => '\t'
  | c => c

/-- Read a label from its opening quote on, which is left out: its text, and what comes
after its closing quote. -/
def readLabel : List Char → Option (List Char × List Char)
  | [] => none
  | '"' :: rest => some ([], rest)
  | ['\\'] => none
  | '\\' :: c :: rest => (readLabel rest).map fun (text, after) => (unescapeChar c :: text, after)
  | c :: rest => (readLabel rest).map fun (text, after) => (c :: text, after)

theorem readLabel_escapeChar (c : Char) (rest : List Char) :
    readLabel (escapeChar c ++ rest) =
      (readLabel rest).map fun (text, after) => (c :: text, after) := by
  unfold escapeChar
  split
  iterate 5 rfl
  next noBackslash noQuote _ _ _ =>
  rw [List.singleton_append, readLabel]
  · exact noQuote
  · exact fun isBackslash => absurd isBackslash noBackslash
  · exact fun _ _ isBackslash => absurd isBackslash noBackslash

/-- A text is read back from its label, whatever it is. -/
theorem readLabel_escape (text : String) (rest : List Char) :
    readLabel ((escape text).toList ++ '"' :: rest) = some (text.toList, rest) := by
  rw [escape, String.toList_ofList]
  induction text.toList with
  | nil => rfl
  | cons c text inductionHypothesis =>
      rw [List.flatMap_cons, List.append_assoc, readLabel_escapeChar, inductionHypothesis]
      rfl

theorem escape_injective {first second : String} (same : escape first = escape second) :
    first = second := by
  have read := readLabel_escape first []
  rw [same, readLabel_escape second [], Option.some.injEq, Prod.mk.injEq] at read
  exact (String.toList_inj.mp read.1).symm

/-! ## Lines -/

theorem not_mem_escapeChar (c : Char) : '\n' ∉ escapeChar c := by
  unfold escapeChar
  split <;> simp_all [eq_comm]

/-- An escaped text has no line ends. -/
theorem not_mem_escape (text : String) : '\n' ∉ (escape text).toList := by
  rw [escape, String.toList_ofList, List.mem_flatMap]
  rintro ⟨c, -, member⟩
  exact not_mem_escapeChar c member

/-! ## Labels of nodes -/

/-- What the label of a node says, with its line ends. -/
def labelText (verbose : Bool) (node : Node) : String :=
  if verbose then
    s!"{node.id}:{node.kind.name}\n{node.displayText}\n" ++
      s!"Pos:{node.startPosition} - {node.endPosition}"
  else
    node.displayText

theorem escape_append (front back : String) :
    escape (front ++ back) = escape front ++ escape back := by
  rw [escape, String.toList_append, List.flatMap_append, String.ofList_append, ← escape, ← escape]

/-- A text without special characters is its own escaped form. -/
theorem escape_eq_self {text : String} (plain : ∀ c ∈ text.toList, escapeChar c = [c]) :
    escape text = text := by
  rw [escape, List.flatMap_congr plain, List.flatMap_singleton', String.ofList_toList]

theorem escape_repr (number : Nat) : escape number.repr = number.repr := by
  refine escape_eq_self fun c member => ?_
  have digit := Decimal.isDigit_of_mem_repr member
  unfold escapeChar
  split <;> first | rfl | exact absurd digit (by decide)

theorem escape_name (kind : NodeKind) : escape kind.name = kind.name := by
  cases kind <;> decide

/-- The label of a node is the escaped form of what it says. -/
theorem label_eq_escape (verbose : Bool) (node : Node) :
    label verbose node = escape (labelText verbose node) := by
  cases verbose with
  | false => rfl
  | true =>
      have colon : escape ":" = ":" := by decide
      have lineEnd : escape "\n" = "\\n" := by decide
      have position : escape "Pos:" = "Pos:" := by decide
      have dash : escape " - " = " - " := by decide
      simp only [labelText, label, toString, if_true, escape_append, escape_repr, escape_name,
        colon, lineEnd, position, dash, String.append_assoc]

theorem not_mem_label (verbose : Bool) (node : Node) : '\n' ∉ (label verbose node).toList := by
  rw [label_eq_escape]
  exact not_mem_escape _

/-- The label of a node is read back up to the quote after it. -/
theorem readLabel_label (verbose : Bool) (node : Node) (rest : List Char) :
    readLabel ((label verbose node).toList ++ '"' :: rest) =
      some ((labelText verbose node).toList, rest) := by
  rw [label_eq_escape, readLabel_escape]

end ProgramGraph.Dot
