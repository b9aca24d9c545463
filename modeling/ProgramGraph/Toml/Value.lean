/-!
# TOML values and tables

A table keeps its entries in the order of the text and remembers how it came to be,
which decides how it may grow.  A table in curly brackets is complete.  A table
that a header names may be filled once.  A table that only a longer header implies
may still get a header of its own, and a table that a dotted key implies may grow
by more dotted keys.
-/

namespace ProgramGraph.Toml

/-- How a table came to be. -/
inductive Origin where
  /-- It is written in curly brackets. -/
  | inline
  /-- A dotted key implies it. -/
  | dotted
  /-- The header of another table implies it. -/
  | implied
  /-- A header names it. -/
  | headed
  deriving DecidableEq, Repr

/-- A TOML value. -/
inductive Value where
  | boolean (value : Bool)
  | integer (value : Int)
  | floating (value : Float)
  | string (value : String)
  /-- A date, a time, or both. -/
  | moment
  | list (elements : List Value)
  | table (origin : Origin) (entries : List (String × Value))
  /-- The tables of one name that headers in double brackets add. -/
  | tables (tables : List (List (String × Value)))
  deriving Repr, Inhabited

/-- The entries of a table. -/
abbrev Entries := List (String × Value)

namespace Entries

/-- The value of a key. -/
def get? (entries : Entries) (key : String) : Option Value :=
  (entries.find? (·.1 == key)).map (·.2)

/-- Put a value at a key, at its old place if it has one. -/
def set (entries : Entries) (key : String) (value : Value) : Entries :=
  if entries.any (·.1 == key) then
    entries.map fun entry => if entry.1 == key then (key, value) else entry
  else
    entries ++ [(key, value)]

/-- Remove a key. -/
def erase (entries : Entries) (key : String) : Entries :=
  entries.filter (·.1 != key)

/-- Put a value at a new key. -/
def insertNew (entries : Entries) (key : String) (value : Value) : Option Entries :=
  if entries.any (·.1 == key) then none else some (entries ++ [(key, value)])

/-- Put a value at the end of a dotted key within a table of a given origin.  The
tables on the way have to be implied, and the one that gets the value has to be
implied by a dotted key. -/
def insertDotted (origin : Origin) (entries : Entries) (key : String) (value : Value) :
    List String → Option Entries
  | [] => if origin = .implied then none else entries.insertNew key value
  | name :: path =>
      match entries.get? name with
      | none => do
          let inner ← insertDotted .dotted [] key value path
          return entries ++ [(name, .table .dotted inner)]
      | some (.table .dotted inner) => do
          return entries.set name (.table .dotted (← insertDotted .dotted inner key value path))
      | some (.table .implied inner) => do
          return entries.set name (.table .implied (← insertDotted .implied inner key value path))
      | some (.tables tables) =>
          match tables.reverse with
          | last :: before => do
              let last ← insertDotted .implied last key value path
              return entries.set name (.tables (last :: before).reverse)
          | [] => none
      | some _ => none

/-- Change the table that the path of a header leads to.  Tables that are missing on
the way are implied; a name with several tables leads to the last one. -/
def modifyAt (change : Entries → Option Entries) (entries : Entries) :
    List String → Option Entries
  | [] => change entries
  | name :: path =>
      match entries.get? name with
      | none => do return entries ++ [(name, .table .implied (← modifyAt change [] path))]
      | some (.table .inline _) => none
      | some (.table origin inner) => do
          return entries.set name (.table origin (← modifyAt change inner path))
      | some (.tables tables) =>
          match tables.reverse with
          | last :: before => do
              let last ← modifyAt change last path
              return entries.set name (.tables (last :: before).reverse)
          | [] => none
      | some _ => none

/-- Begin the table that a header names.  A table that was only implied moves to the
end. -/
def openTable (entries : Entries) (name : String) : Option Entries :=
  match entries.get? name with
  | none => some (entries ++ [(name, .table .headed [])])
  | some (.table .implied inner) => some (entries.erase name ++ [(name, .table .headed inner)])
  | some _ => none

/-- Begin another table of a name. -/
def openNext (entries : Entries) (name : String) : Option Entries :=
  match entries.get? name with
  | none => some (entries ++ [(name, .tables [[]])])
  | some (.tables tables) => some (entries.set name (.tables (tables ++ [[]])))
  | some _ => none

end Entries

end ProgramGraph.Toml
