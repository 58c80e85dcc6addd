/-
# Tables

A table maps keys to values and keeps them in the order in which the keys
were first inserted. Inserting under a key that is there replaces the value
and keeps its place.

Key definitions: `Table`, `Table.insert`, `Table.erase`, `Table.find?`.
-/

namespace Javascribe

/-- Keys with a value for each, in order. -/
structure Table (κ α : Type) where
  entries : List (κ × α) := []

namespace Table

variable {κ α : Type} [BEq κ]

/-- The table with nothing in it. -/
def empty : Table κ α := ⟨[]⟩

/-- The value under a key. -/
def find? (table : Table κ α) (key : κ) : Option α := table.entries.lookup key

/-- Whether there is a value under a key. -/
def contains (table : Table κ α) (key : κ) : Bool := (table.find? key).isSome

/-- The entries with the value of `key` replaced, or added at the end. -/
def insertEntry (key : κ) (value : α) : List (κ × α) → List (κ × α)
  | [] => [(key, value)]
  | (other, old) :: entries =>
    if other == key then (key, value) :: entries
    else (other, old) :: insertEntry key value entries

/-- The table with a value under `key`. -/
def insert (table : Table κ α) (key : κ) (value : α) : Table κ α :=
  ⟨insertEntry key value table.entries⟩

/-- The table without `key`. -/
def erase (table : Table κ α) (key : κ) : Table κ α :=
  ⟨table.entries.filter fun (other, _) => !(other == key)⟩

/-- The keys, in order. -/
def keys (table : Table κ α) : List κ := table.entries.map (·.1)

/-- The values, in order. -/
def values (table : Table κ α) : List α := table.entries.map (·.2)

end Table
end Javascribe
