import LineCensus.Text.Letter

namespace LineCensus.Csv

open Text

/-!
# Comma-separated values

* `writeRow`, `write` — rows as text: a field is quoted only if it holds a comma, a quotation mark
  or a line feed, and quotation marks in it are doubled.
* `Reader` — the state of reading a text letter by letter.
* `Reader.feed`, `Reader.endLine` — the state after a letter and after a line.
* `read` — the rows of a text, and whether reading stopped at a carriage return that stands between
  two characters of an unquoted field.
-/

/-- A row: its fields in order. -/
abbrev Row := List Letters

/-! ### Writing -/

/-- A field that is quoted. -/
def needsQuotes (field : Letters) : Bool :=
  field.any fun c => c == ',' || c == '"' || c == '\n'

/-- Quotation marks are written twice. -/
def doubled (c : Letter) : Letters := if c = '"' then [.char '"', .char '"'] else [c]

/-- A field as it stands in a row. -/
def writeField (field : Letters) : Letters :=
  if needsQuotes field then .char '"' :: field.flatMap doubled ++ [.char '"'] else field

/-- The fields with commas between them. -/
def writeFields : Row → Letters
  | [] => []
  | [f] => writeField f
  | f :: fs => writeField f ++ .char ',' :: writeFields fs

/-- A row with its line end. -/
def writeRow (row : Row) : Letters := writeFields row ++ [.char '\n']

/-- The text of rows. -/
def write (rows : List Row) : Letters := rows.flatMap writeRow

/-! ### Reading -/

/-- Where a reader stands: before a row, before a field, in a field without quotes or in a quoted
    one, behind a quotation mark in a quoted field, or behind the characters of a line end. -/
inductive Mode where
  | rowStart
  | fieldStart
  | bare
  | quoted
  | afterQuote
  | lineEnd
  deriving DecidableEq, Repr

/-- A reader: its mode, the field and the row at hand with the latest first, and the rows read. -/
structure Reader where
  mode : Mode := .rowStart
  field : Letters := []
  fields : Row := []
  rows : List Row := []
  stray : Bool := false

namespace Reader

/-- Ends the field. -/
def endField (r : Reader) (mode : Mode) : Reader :=
  { r with mode, field := [], fields := r.field.reverse :: r.fields }

/-- Takes a character into the field. -/
def take (r : Reader) (mode : Mode) (c : Letter) : Reader := { r with mode, field := c :: r.field }

/-- A character of a line end. -/
def isLineEnd (c : Letter) : Bool := c == '\n' || c == '\r'

/-- The state after a character where a field may begin. -/
def begin (r : Reader) (c : Letter) : Reader :=
  if isLineEnd c then r.endField .lineEnd
  else if c = '"' then { r with mode := .quoted }
  else if c = ',' then r.endField .fieldStart
  else r.take .bare c

/-- The state after a character. -/
def feed (r : Reader) (c : Letter) : Reader :=
  match r.mode with
  | .rowStart => if isLineEnd c then { r with mode := .lineEnd } else r.begin c
  | .fieldStart => r.begin c
  | .bare =>
    if isLineEnd c then r.endField .lineEnd
    else if c = ',' then r.endField .fieldStart
    else r.take .bare c
  | .quoted => if c = '"' then { r with mode := .afterQuote } else r.take .quoted c
  | .afterQuote =>
    if c = '"' then r.take .quoted c
    else if c = ',' then r.endField .fieldStart
    else if isLineEnd c then r.endField .lineEnd
    else r.take .bare c
  -- Only further characters of line ends may follow one.
  | .lineEnd => if isLineEnd c then r else { r with stray := true }

/-- Ends the row. -/
def endRow (r : Reader) : Reader :=
  { r with mode := .rowStart, field := [], fields := [], rows := r.fields.reverse :: r.rows }

/-- The state after a line.  A quoted field goes on in the next one. -/
def endLine (r : Reader) : Reader :=
  match r.mode with
  | .quoted => r
  | .rowStart | .lineEnd => r.endRow
  | .fieldStart | .bare | .afterQuote => (r.endField .rowStart).endRow

/-- The state after the rest of a text.  `fresh` says that no character of the line has come yet. -/
def run (r : Reader) (fresh : Bool) : Letters → Reader
  | [] =>
    let r := if fresh then r else r.endLine
    -- A quoted field that is still open ends with the text.
    if r.mode = .quoted then (r.endField .rowStart).endRow else r
  | c :: s =>
    let r := r.feed c
    if r.stray then r
    else if c = '\n' then r.endLine.run true s
    else r.run false s

end Reader

/-- The rows of a text, and whether a stray carriage return follows them. -/
def read (text : Letters) : List Row × Bool :=
  let r := Reader.run {} true text
  (r.rows.reverse, r.stray)

end LineCensus.Csv
