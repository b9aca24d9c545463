import ProgramGraph.Decimal.Shortest
import ProgramGraph.Rendering
import ProgramGraph.Toml.Document

/-!
# Settings

Settings say how graphs are extracted and written.  They are kept in a TOML
document, whose entries are looked at in the order in which the document has them;
entries of other names are passed over, and a setting that is not given keeps its
default.

The format is given by its name, or by a table with that name as its only key and
nothing below it.
-/

namespace ProgramGraph

/-- How graphs are extracted and written. -/
structure Settings extends Rendering where
  /-- Whether leaves of the syntax tree are removed before a graph is written. -/
  prune : Bool := false
  /-- How many files may be worked on at a time. -/
  threads : Option Nat := none
  deriving DecidableEq, Repr, Inhabited

namespace Settings

/-- Why a document holds no settings. -/
inductive Fault where
  /-- The document is not TOML. -/
  | notToml
  /-- The format is neither a name nor a table. -/
  | wantedNameOrTable
  /-- The table of the format is empty. -/
  | wantedOneKey
  /-- The table of the format has several keys. -/
  | wantedOnlyOneKey
  /-- There is something below the name of the format. -/
  | formatHasContent
  /-- A setting has the wrong value. -/
  | mismatch (cause : Mismatch)
  deriving DecidableEq, Repr

/-- The text of a fault. -/
def Fault.message : Fault → String
  | notToml => "the document is not well written"
  | wantedNameOrTable => "wanted string or table"
  | wantedOneKey => "wanted exactly 1 element, found 0 elements"
  | wantedOnlyOneKey => "wanted exactly 1 element, more than 1 element"
  | formatHasContent => "expected empty table"
  | mismatch cause => cause.message

/-! ## Values -/

/-- What a value is found to be.  A date or time counts as a table. -/
def found : Toml.Value → Found
  | .boolean value => .boolean value
  | .integer value => .integer value
  | .floating value => .floating (Decimal.showFull value)
  | .string value => .text value
  | .moment => .map
  | .list _ => .sequence
  | .table _ _ => .map
  | .tables _ => .sequence

/-- The truth value that a setting has. -/
def ofBoolean : Toml.Value → Except Fault Bool
  | .boolean value => .ok value
  | value => .error (.mismatch (.type (found value) "a boolean"))

/-- The number that a setting has. -/
def ofNatural : Toml.Value → Except Fault Nat
  | .integer (.ofNat value) => .ok value
  | .integer value => .error (.mismatch (.value (.integer value) "usize"))
  | value => .error (.mismatch (.type (found value) "usize"))

/-- The format of a name. -/
def formatNamed (name : String) : Except Fault Format :=
  match Format.ofName? name with
  | some format => .ok format
  | none => .error (.mismatch (.variant name Format.names))

/-- Whether a value holds nothing. -/
def isHollow : Toml.Value → Bool
  | .table _ entries => entries.isEmpty
  | .list elements => elements.isEmpty
  | _ => false

/-- The format that a setting has. -/
def ofFormat : Toml.Value → Except Fault Format
  | .string name => formatNamed name
  | .table _ [] => .error .wantedOneKey
  | .table _ [(name, value)] => do
      let format ← formatNamed name
      if isHollow value then .ok format else .error .formatHasContent
  | .table _ _ => .error .wantedOnlyOneKey
  | _ => .error .wantedNameOrTable

/-! ## Documents -/

/-- Take one entry of a document into settings. -/
def withEntry (settings : Settings) (entry : String × Toml.Value) : Except Fault Settings :=
  match entry.1 with
  | "format" => return { settings with format := ← ofFormat entry.2 }
  | "verbose" => return { settings with isVerbose := ← ofBoolean entry.2 }
  | "prune" => return { settings with prune := ← ofBoolean entry.2 }
  | "pretty" => return { settings with isPretty := ← ofBoolean entry.2 }
  | "threads" => return { settings with threads := some (← ofNatural entry.2) }
  | _ => .ok settings

/-- The settings that a document holds. -/
def ofToml (text : String) : Except Fault Settings :=
  match Toml.parse? text with
  | some entries => entries.foldlM withEntry {}
  | none => .error .notToml

end Settings

end ProgramGraph
