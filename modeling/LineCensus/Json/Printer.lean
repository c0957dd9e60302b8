import LineCensus.Value
import LineCensus.Decimal.Shortest
import LineCensus.Text.Utf16

namespace LineCensus.Json

open Text

/-!
# Writing JSON

* `Style` — on one line or indented, and with or without characters beyond ASCII.
* `compact`, `report`, `comparison` — the styles in use.
* `write` — the text of a value.
-/

/-- How a value is written. -/
structure Style where
  /-- Spaces for each level; without them everything stands on one line. -/
  indent : Option Nat
  /-- Whether letters beyond printable ASCII are written as escapes. -/
  asciiOnly : Bool

/-- One line without spaces, in ASCII: the form that is digested. -/
def Style.compact : Style := ⟨none, true⟩

/-- Indented by two, in ASCII: the form of a stored report. -/
def Style.report : Style := ⟨some 2, true⟩

/-- Indented by two, with all letters as they are: the form of a stored comparison. -/
def Style.comparison : Style := ⟨some 2, false⟩

/-- A code unit as an escape. -/
def unitEscape (u : Nat) : List Char := '\\' :: 'u' :: showHex 4 u

/-- A character inside a string. -/
def writeChar (asciiOnly : Bool) (c : Char) : List Char :=
  let n := c.toNat
  if c = '"' || c = '\\' then ['\\', c]
  else if c = '\n' then ['\\', 'n']
  else if c = '\r' then ['\\', 'r']
  else if c = '\t' then ['\\', 't']
  else if c = '\x08' then ['\\', 'b']
  else if c = '\x0c' then ['\\', 'f']
  else if n < 32 || (asciiOnly && 127 ≤ n) then (unitsOf c).flatMap unitEscape
  else [c]

/-- A letter inside a string. -/
def writeLetter (asciiOnly : Bool) : Letter → Letters
  | .char c => letters (writeChar asciiOnly c)
  | .surrogate n =>
    if asciiOnly then letters (unitEscape (Letter.surrogate n).code) else [.surrogate n]

/-- A string between its marks. -/
def writeString (asciiOnly : Bool) (s : Letters) : Letters :=
  .char '"' :: s.flatMap (writeLetter asciiOnly) ++ [.char '"']

/-- The line break before an entry `depth` levels deep. -/
def Style.break (style : Style) (depth : Nat) : Letters :=
  match style.indent with
  | none => []
  | some n => .char '\n' :: List.replicate (n * depth) (.char ' ')

/-- What stands between a name and its value. -/
def Style.colon (style : Style) : Letters :=
  match style.indent with
  | none => [.char ':']
  | some _ => [.char ':', .char ' ']

/-- Entries between brackets, each on a line of its own if the style has lines. -/
def bracketed (style : Style) (depth : Nat) (opening closing : Char) : List Letters → Letters
  | [] => [.char opening, .char closing]
  | e :: es =>
    .char opening :: style.break (depth + 1) ++ e ++
      es.flatMap (fun e => .char ',' :: style.break (depth + 1) ++ e) ++ style.break depth ++
        [.char closing]

mutual

/-- The text of a value `depth` levels deep. -/
def writeAt (style : Style) (depth : Nat) : Value Letters → Letters
  | .null | .calendar => "null"
  | .bool b => if b then "true" else "false"
  | .int n => letters (showInt n)
  | .float x => Decimal.showShortest x
  | .text s => writeString style.asciiOnly s
  | .list items => bracketed style depth '[' ']' (writeItems style (depth + 1) items)
  | .table entries => bracketed style depth '{' '}' (writeEntries style (depth + 1) entries)

/-- The texts of the items of a list. -/
def writeItems (style : Style) (depth : Nat) : List (Value Letters) → List Letters
  | [] => []
  | v :: vs => writeAt style depth v :: writeItems style depth vs

/-- The texts of the entries of a table. -/
def writeEntries (style : Style) (depth : Nat) : List (Letters × Value Letters) → List Letters
  | [] => []
  | (name, v) :: es =>
    (writeString style.asciiOnly name ++ style.colon ++ writeAt style depth v) ::
      writeEntries style depth es

end

/-- The text of a value. -/
def write (style : Style) (v : Value Letters) : Letters := writeAt style 0 v

end LineCensus.Json
