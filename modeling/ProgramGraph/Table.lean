/-!
# Tables

A table is a finite map kept as a list of key and value pairs, at most one pair
a key.  A key that is written again keeps its place in the list, so the order of
a table is the order in which its keys first came.

Each operation is described by what it does to `get?`, and nothing else about
the list of pairs is needed by the rest of the library.
-/

namespace ProgramGraph

/-- A finite map from `κ` to `α`, in the order of first writing. -/
structure Table (κ α : Type) where
  entries : List (κ × α) := []
  deriving Repr, Inhabited, DecidableEq

namespace Table

variable {κ α : Type} [DecidableEq κ]

/-- The value at a key of a list of pairs. -/
def lookup (key : κ) : List (κ × α) → Option α
  | [] => none
  | (other, value) :: rest => if other = key then some value else lookup key rest

/-- Put a value at a key of a list of pairs. -/
def write (key : κ) (value : α) : List (κ × α) → List (κ × α)
  | [] => [(key, value)]
  | (other, old) :: rest =>
      if other = key then (key, value) :: rest else (other, old) :: write key value rest

/-- The value at a key, if there is one. -/
def get? (table : Table κ α) (key : κ) : Option α :=
  lookup key table.entries

/-- Put `value` at `key`, whatever was there before. -/
def set (table : Table κ α) (key : κ) (value : α) : Table κ α where
  entries := write key value table.entries

/-- Leave `key` without a value. -/
def erase (table : Table κ α) (key : κ) : Table κ α where
  entries := table.entries.filter (·.1 ≠ key)

/-- How many keys have a value. -/
def size (table : Table κ α) : Nat :=
  table.entries.length

@[simp]
theorem get?_empty (key : κ) : ({} : Table κ α).get? key = none :=
  rfl

theorem lookup_write (key other : κ) (value : α) (entries : List (κ × α)) :
    lookup other (write key value entries) =
      if key = other then some value else lookup other entries := by
  induction entries with
  | nil => simp [write, lookup]
  | cons entry rest ih =>
      obtain ⟨first, old⟩ := entry
      by_cases same : first = key
      · subst same
        by_cases here : first = other <;> simp [write, lookup, here]
      · by_cases here : first = other
        · subst here
          simp [write, lookup, same, Ne.symm same]
        · simp [write, lookup, same, here, ih]

/-- Writing changes the value at the written key and at no other. -/
@[simp]
theorem get?_set (table : Table κ α) (key other : κ) (value : α) :
    (table.set key value).get? other =
      if key = other then some value else table.get? other :=
  lookup_write key other value table.entries

/-- Erasing changes the value at the erased key and at no other. -/
@[simp]
theorem get?_erase (table : Table κ α) (key other : κ) :
    (table.erase key).get? other = if key = other then none else table.get? other := by
  obtain ⟨entries⟩ := table
  simp only [erase, get?]
  induction entries with
  | nil => simp [lookup]
  | cons entry rest ih =>
      obtain ⟨first, old⟩ := entry
      by_cases same : first = key
      · subst same
        by_cases here : first = other <;> simp_all [lookup]
      · by_cases here : first = other
        · subst here
          simp [lookup, same, Ne.symm same]
        · simp_all [lookup]

end Table

end ProgramGraph
