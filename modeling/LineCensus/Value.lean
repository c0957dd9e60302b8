import LineCensus.Table
import LineCensus.Text.Letter

namespace LineCensus

open Text

/-!
# Values of data files

* `Value` — what a JSON, XML or TOML document holds before it is read as a report or as a
  configuration.  Its texts are strings unless another kind of text is named.
* `Value.text?` — the text of a value that is one.
* `Value.spelled` — the value with its texts as letters.
-/

/-- A value of a document.  Dates and times of a configuration are only ever refused, so nothing of
    them is kept. -/
inductive Value (τ : Type := String) where
  | null
  | bool (b : Bool)
  | int (n : Int)
  | float (x : Float)
  | text (s : τ)
  | calendar
  | list (items : List (Value τ))
  | table (entries : List (τ × Value τ))

/-- The text of a value that is one. -/
def Value.text? {τ : Type} : Value τ → Option τ
  | .text s => some s
  | _ => none

mutual

/-- The value with its texts as letters. -/
def Value.spelled : Value → Value Letters
  | .null => .null
  | .bool b => .bool b
  | .int n => .int n
  | .float x => .float x
  | .text s => .text s
  | .calendar => .calendar
  | .list items => .list (spelledItems items)
  | .table entries => .table (spelledEntries entries)

/-- The items with their texts as letters. -/
def spelledItems : List Value → List (Value Letters)
  | [] => []
  | v :: vs => v.spelled :: spelledItems vs

/-- The entries with their names and texts as letters. -/
def spelledEntries : List (String × Value) → List (Letters × Value Letters)
  | [] => []
  | (name, v) :: es => (name, v.spelled) :: spelledEntries es

end

end LineCensus
