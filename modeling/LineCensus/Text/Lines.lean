import LineCensus.Text.Search

namespace LineCensus.Text

/-!
# Physical lines

* `dropReturn` — a line without one carriage return at its end.
* `splitLines` — the lines of a source text: pieces between line feeds, without the empty piece
  after a final line feed and without the carriage return of a two-character line end.
-/

/-- A line without one final carriage return. -/
def dropReturn (line : List Char) : List Char :=
  if line.getLast? = some '\r' then line.dropLast else line

/-- The pieces without a last one that is empty. -/
def dropFinalEmpty (pieces : List (List Char)) : List (List Char) :=
  if pieces.getLast? = some [] then pieces.dropLast else pieces

/-- The lines of a source text. -/
def splitLines (text : List Char) : List (List Char) :=
  (dropFinalEmpty (splitAtChar '\n' text)).map dropReturn

/-- `splitLines` on strings. -/
def linesOf (text : String) : List String := (splitLines text.toList).map String.ofList

end LineCensus.Text
