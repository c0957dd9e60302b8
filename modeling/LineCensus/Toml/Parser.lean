import LineCensus.Toml.Scalar
import LineCensus.Toml.Tree

namespace LineCensus.Toml

open Text

/-!
# Reading TOML

* `readValue` — any value at the front of a text, with what follows it.
* `readStatement` — a line of a document: a key with its value, or a header.
* `parse` — the table of a whole text, or why the text is no document.

Arrays and tables in braces may stand one in the other as far as their weights allow.
-/

/-- What an array weighs. -/
def arrayWeight : Nat := 2

/-- What a table in braces weighs. -/
def tableWeight : Nat := 3

/-- The room that is left beside a value of some weight. -/
def roomBeside (weight room : Nat) : Except Failure Nat :=
  if room < weight then .error (.excess .nesting) else .ok (room - weight)

/-- Reads a key, the equals sign behind it and white space. -/
def readName? (s : List Char) : Option (Key × List Char) := do
  let (key, s) ← readKey? s
  let s ← expect? '=' s
  some (key, skipBlanks s)

mutual

/-- Reads a value; `fuel` bounds the calls below this one, and `room` the weight of the arrays and
    tables in it. -/
def readValue : Nat → Nat → List Char → Except Failure (Value × List Char)
  | 0, _, _ => .error .malformed
  | fuel + 1, room, s =>
    match s with
    | '[' :: r => do
      let room ← roomBeside arrayWeight room
      match ← orFail (skipFiller? r) with
      | ']' :: r => return (.list [], r)
      | r =>
        let (items, r) ← readItems fuel room r
        return (.list items, r)
    | '\x7b' :: r => do
      let room ← roomBeside tableWeight room
      match skipBlanks r with
      | '\x7d' :: r => return (.table [], r)
      | r =>
        let (members, r) ← readMembers fuel room [] r
        return (.table (toTable members), r)
    | s =>
      if s.head? = some '"' || s.head? = some '\'' then
        (orFail (readText? s)).map fun (t, r) => (.text (String.ofList t), r)
      else readPlain s

/-- Reads the items of an array up to its closing bracket. -/
def readItems : Nat → Nat → List Char → Except Failure (List Value × List Char)
  | 0, _, _ => .error .malformed
  | fuel + 1, room, s => do
    let (v, r) ← readValue fuel room s
    match ← orFail (skipFiller? r) with
    | ']' :: r => return ([v], r)
    | ',' :: r =>
      match ← orFail (skipFiller? r) with
      | ']' :: r => return ([v], r)
      | r =>
        let (vs, r) ← readItems fuel room r
        return (v :: vs, r)
    | _ => .error .malformed

/-- Reads the members of a table up to its closing brace, into those before them. -/
def readMembers : Nat → Nat → Table Node → List Char → Except Failure (Table Node × List Char)
  | 0, _, _, _ => .error .malformed
  | fuel + 1, room, before, s => do
    let (key, r) ← orFail (readName? s)
    let (v, r) ← readValue fuel room r
    let members ← orFail (put 0 key v before)
    match skipBlanks r with
    | '\x7d' :: r => return (members, r)
    | ',' :: r => readMembers fuel room members (skipBlanks r)
    | _ => .error .malformed

end

/-- A document up to a line: its tables, the table that keys go to, and the number of headers. -/
structure Progress where
  tables : Table Node := []
  header : List String := []
  part : Nat := 0

/-- Reads a header up to its closing marks, and changes the tables. -/
def readHeader? (p : Progress) (close : List Char) (change : Key → Table Node → Option (Table Node))
    (s : List Char) : Option (Progress × List Char) := do
  let (key, s) ← readKey? (skipBlanks s)
  let tables ← change key p.tables
  let s ← dropStart? close s
  some (⟨tables, key.path ++ [key.name], p.part + 1⟩, s)

/-- Reads what a line holds before its comment. -/
def readStatement (p : Progress) (s : List Char) : Except Failure (Progress × List Char) :=
  match s with
  | [] => .ok (p, [])
  | c :: r =>
    if c = '\n' || c = '#' then .ok (p, s)
    else if c = '[' then
      match expect? '[' r with
      | some r => orFail (readHeader? p [']', ']'] append r)
      | none => orFail (readHeader? p [']'] declare r)
    else do
      let (key, r) ← orFail (readName? s)
      let (v, r) ← readValue (2 * r.length + 2) maxNesting r
      let tables ← orFail (assign p.part p.header key v p.tables)
      return ({ p with tables := tables }, r)

/-- Reads the lines of a document; `fuel` bounds their number. -/
def readLines : Nat → Progress → List Char → Except Failure Progress
  | 0, _, _ => .error .malformed
  | fuel + 1, p, s =>
    match readStatement p (skipBlanks s) with
    | .error e => .error e
    | .ok (p, r) =>
      match skipComment? (skipBlanks r) with
      | some [] => .ok p
      | some ('\n' :: r) => readLines fuel p r
      | _ => .error .malformed

/-- The table of a whole text. -/
def parse (s : List Char) : Except Failure (Table Value) :=
  (readLines (s.length + 1) {} s).map fun p => toTable p.tables

end LineCensus.Toml
