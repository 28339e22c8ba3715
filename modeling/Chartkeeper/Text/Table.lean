/-!
# Tables

A table maps texts to values and keeps its rows in ascending order of their keys, by code
point. It is a plain list of pairs, so that a tree of values can hold tables of itself.
-/

namespace Chartkeeper

/-- Rows of a key and a value. Every function that builds a table keeps the keys ascending. -/
abbrev Table (α : Type) := List (String × α)

namespace Table

variable {α β : Type}

def get? (key : String) : Table α → Option α
  | [] => none
  | (k, v) :: rest => if k = key then some v else get? key rest

def contains (key : String) (t : Table α) : Bool :=
  (t.get? key).isSome

/-- Sets the value of a key: its row is replaced, or a new one goes before the first larger
key. -/
def insert (key : String) (value : α) : Table α → Table α
  | [] => [(key, value)]
  | (k, v) :: rest =>
    if k = key then (key, value) :: rest
    else if key < k then (key, value) :: (k, v) :: rest
    else (k, v) :: insert key value rest

/-- Sets the value of a key only when it has no row yet. -/
def insertNew (key : String) (value : α) (t : Table α) : Table α :=
  if t.contains key then t else t.insert key value

def erase (key : String) : Table α → Table α
  | [] => []
  | (k, v) :: rest => if k = key then rest else (k, v) :: erase key rest

/-- The table of a list of rows; of two rows with one key the later one stays. -/
def ofRows (rows : List (String × α)) : Table α :=
  rows.foldl (fun t row => t.insert row.1 row.2) []

/-- The keys, ascending. -/
def keys (t : Table α) : List String :=
  t.map Prod.fst

/-- The values, in the order of their keys. -/
def values (t : Table α) : List α :=
  t.map Prod.snd

/-- Reads every value; `none` as soon as one cannot be read. -/
def mapValues? (f : α → Option β) : Table α → Option (Table β)
  | [] => some []
  | (k, v) :: rest => do
    let w ← f v
    let rest ← mapValues? f rest
    return (k, w) :: rest

end Table

end Chartkeeper
