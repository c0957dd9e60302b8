import LineCensus.Toml.Quoted
import LineCensus.Value

namespace LineCensus.Toml

/-!
# Tables of a TOML document in the making

* `Origin`, `Node` — a place in the document and what brought it about.
* `assign` — gives a key of a section a value.
* `declare`, `append` — the headers of a table and of one more table in an array.
* `toTable` — the tables as values.

A place is written once.  A table that was only passed through may still be declared; one that a
dotted key made is open to more keys of the same section only.
-/

/-- How a table came about: on the way to others, by a dotted key of a section, or by its header. -/
inductive Origin where
  | implied
  | dotted (part : Nat)
  | declared
  deriving DecidableEq, Repr

/-- A place in a document: a value, a table, or an array of tables of which the last is open. -/
inductive Node where
  | value (v : Value)
  | table (origin : Origin) (entries : List (String × Node))
  | array (closed : List Value) (last : List (String × Node))

mutual

/-- The value at a place. -/
def Node.toValue : Node → Value
  | .value v => v
  | .table _ entries => .table (toTable entries)
  | .array closed last => .list (closed ++ [.table (toTable last)])

/-- The values of a table. -/
def toTable : List (String × Node) → Table Value
  | [] => []
  | (key, node) :: rest => (key, node.toValue) :: toTable rest

end

/-- Changes the table at the end of a path.  Tables that are missing on the way are made, and an
    array stands for its last table. -/
def descend (f : Table Node → Option (Table Node)) :
    List String → Table Node → Option (Table Node)
  | [], t => f t
  | key :: path, t =>
    match t.get? key with
    | none => (descend f path []).map fun s => t.insert key (.table .implied s)
    | some (.table origin s) => (descend f path s).map fun s => t.insert key (.table origin s)
    | some (.array closed s) => (descend f path s).map fun s => t.insert key (.array closed s)
    | some (.value _) => none

/-- Changes the table at the end of a dotted key's path in the given section.  No table on the way
    may have a header or belong to another section. -/
def follow (part : Nat) (f : Table Node → Option (Table Node)) :
    List String → Table Node → Option (Table Node)
  | [], t => f t
  | key :: path, t =>
    match t.get? key with
    | none => (follow part f path []).map fun s => t.insert key (.table (.dotted part) s)
    | some (.table origin s) =>
      if origin = .implied ∨ origin = .dotted part then
        (follow part f path s).map fun s => t.insert key (.table (.dotted part) s)
      else none
    | some _ => none

/-- Gives a key of a table a value, in the given section. -/
def put (part : Nat) (key : Key) (v : Value) (t : Table Node) : Option (Table Node) :=
  follow part (fun t => if t.has key.name then none else some (t.insert key.name (.value v)))
    key.path t

/-- Gives a key a value in the table of a header. -/
def assign (part : Nat) (header : List String) (key : Key) (v : Value) (t : Table Node) :
    Option (Table Node) :=
  descend (put part key v) header t

/-- Declares the table of a header. -/
def declare (key : Key) (t : Table Node) : Option (Table Node) :=
  descend (fun t => match t.get? key.name with
    | none => some (t.insert key.name (.table .declared []))
    | some (.table .implied s) => some (t.insert key.name (.table .declared s))
    | some _ => none) key.path t

/-- Appends a table to the array of a header. -/
def append (key : Key) (t : Table Node) : Option (Table Node) :=
  descend (fun t => match t.get? key.name with
    | none => some (t.insert key.name (.array [] []))
    | some (.array closed last) =>
      some (t.insert key.name (.array (closed ++ [.table (toTable last)]) []))
    | some _ => none) key.path t

end LineCensus.Toml
