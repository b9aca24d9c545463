import ProgramGraph.Toml.Literal

/-!
# TOML documents

A document is a sequence of lines.  A line holds the header of a table, an entry of
the table of the last header, a comment or nothing.  No key may be given twice, and
a table may be opened by a header only once.
-/

namespace ProgramGraph.Toml

namespace Reader

/-! ## Values -/

/-- Read a number, a date or a time. -/
def numeric : Reader Value := do
  match ← attempt moment with
  | some value => return value
  | none =>
      match ← attempt floating with
      | some value => return value
      | none => integer

/-- Read the elements of a list after its opening bracket, given how an element is
read. -/
def listRest (element : Reader Value) : Reader Value := do
  let (elements, _) ← iterate
    (fun (elements, due) => do
      gaps
      if ← optional [']'] then return none
      if due then
        expect [',']
        return some (elements, false)
      return some ((← element) :: elements, true))
    (2 * (← rest).length + 2) ([], false)
  return .list elements.reverse

/-- Read the entries of a table after its opening bracket, given how a value is
read. -/
def tableRest (element : Reader Value) : Reader Value := do
  let entry (entries : Entries) : Reader Entries := do
    let (path, name) ← key
    expect ['=']
    blanks
    let value ← element
    blanks
    match entries.insertDotted .inline name value path with
    | some entries => return entries
    | none => fail
  blanks
  if ← optional ['\x7d'] then return .table .inline []
  let first ← entry []
  let entries ← iterate
    (fun entries => do
      if ← optional [','] then return some (← entry entries) else return none)
    ((← rest).length + 1) first
  expect ['\x7d']
  return .table .inline entries

/-- Read a value that has no brackets. -/
def plainValue : Reader Value := do
  match ← peek with
  | none => fail
  | some c =>
      if c == '"' || c == '\'' then return .string (← string)
      else if c == '+' || c == '-' || c.isDigit then numeric
      else if c == 't' then
        expect "true".toList
        return .boolean true
      else if c == 'f' then
        expect "false".toList
        return .boolean false
      else if c == 'i' || c == 'n' then floating
      else fail

/-- Read a value that nests at most `depth` levels of brackets. -/
def value : Nat → Reader Value
  | 0 => plainValue
  | depth + 1 => do
      if ← optional ['['] then listRest (value depth)
      else if ← optional ['\x7b'] then tableRest (value depth)
      else plainValue

/-! ## Lines -/

/-- A document up to some line: its entries, and the header of the last table. -/
structure Partial where
  entries : Entries := []
  header : List String := []

/-- Read a header after its first bracket. -/
def header (document : Partial) : Reader Partial := do
  let isNext ← optional ['[']
  let (path, name) ← key
  expect (if isNext then [']', ']'] else [']'])
  endOfLine
  let change (entries : Entries) : Option Entries :=
    if isNext then entries.openNext name else entries.openTable name
  match document.entries.modifyAt change path with
  | some entries => return { entries, header := path ++ [name] }
  | none => fail

/-- Read an entry. -/
def entry (document : Partial) : Reader Partial := do
  let (path, name) ← key
  expect ['=']
  blanks
  let value ← value (depthLimit - 1)
  endOfLine
  let change (entries : Entries) : Option Entries := entries.insertDotted .headed name value path
  match document.entries.modifyAt change document.header with
  | some entries => return { document with entries }
  | none => fail

/-- Read one line, if the text is not at its end. -/
def line (document : Partial) : Reader (Option Partial) := do
  blanks
  match ← peek with
  | none => return none
  | some c =>
      if c == '#' then
        endOfLine
        return some document
      else if ← optionalLineEnd then
        return some document
      else if ← optional ['['] then
        return some (← header document)
      else
        return some (← entry document)

/-- Read a document. -/
def document : Reader Entries := do
  let _ ← optional ['\ufeff']
  let whole ← iterate line ((← rest).length + 1) {}
  if (← rest).isEmpty then return whole.entries else fail

end Reader

/-- The entries of a document, if the text is one. -/
def parse? (text : String) : Option Entries :=
  (Reader.document.run text.toList).map (·.1)

end ProgramGraph.Toml
