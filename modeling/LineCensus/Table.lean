namespace LineCensus

/-!
# Tables in order of insertion

* `Table` — a list of keys with their values, each key once.  Keys are strings unless another kind of
  text is named.
* `Table.get?` — the value of a key.
* `Table.insert` — gives a key a value; a key that is there keeps its place.
* `Table.erase` — removes a key.
* `Table.ofList` — the table of a list of pairs, where the last value of a key counts.
-/

/-- Keys with their values in the order in which the keys came. -/
abbrev Table (α : Type) (κ : Type := String) := List (κ × α)

namespace Table

variable {α κ : Type} [DecidableEq κ]

/-- The value of a key. -/
def get? (t : Table α κ) (key : κ) : Option α :=
  (t.find? fun e => e.1 == key).map (·.2)

/-- Whether the key has a value. -/
def has (t : Table α κ) (key : κ) : Bool := t.any fun e => e.1 == key

/-- Gives `key` the value `v`, in its old place or at the end. -/
def insert (t : Table α κ) (key : κ) (v : α) : Table α κ :=
  if t.has key then t.map fun e => if e.1 == key then (key, v) else e else t ++ [(key, v)]

/-- Gives `key` the value `v` unless it has one. -/
def insertNew (t : Table α κ) (key : κ) (v : α) : Table α κ :=
  if t.has key then t else t ++ [(key, v)]

/-- Removes `key`. -/
def erase (t : Table α κ) (key : κ) : Table α κ := t.filter fun e => e.1 != key

/-- The table of pairs in which later ones overwrite. -/
def ofList (pairs : List (κ × α)) : Table α κ :=
  pairs.foldl (fun t e => insert t e.1 e.2) []

end Table

end LineCensus
