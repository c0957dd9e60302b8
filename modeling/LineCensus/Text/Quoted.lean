import LineCensus.Text.Digit
import LineCensus.Text.Letter
import LineCensus.Text.PrintTable
import LineCensus.Text.CaseTable

namespace LineCensus.Text

/-!
# Quoted texts in messages

* `quoteMark` — the mark a text is quoted with: the single one, unless the text has that and not
  the double one.
* `quotedChar` — how one character stands between the marks.
* `quoted` — a text between quotation marks, on one line and with nothing invisible in it;
  `quotedLetters` of a text that may have surrogates.
-/

/-- A character that is shown as itself. -/
def isPrintable (c : Char) : Bool :=
  let n := c.toNat
  if n < 128 then 32 ≤ n && n < 127 else !inRanges unprintableRanges n

/-- The mark a text is quoted with. -/
def quoteMark (s : List Char) : Char :=
  if s.contains '\'' && !s.contains '"' then '"' else '\''

/-- A character between quotation marks `mark`. -/
def quotedChar (mark c : Char) : List Char :=
  let n := c.toNat
  if c = mark || c = '\\' then ['\\', c]
  else if c = '\n' then ['\\', 'n']
  else if c = '\r' then ['\\', 'r']
  else if c = '\t' then ['\\', 't']
  else if isPrintable c then [c]
  else if n < 256 then '\\' :: 'x' :: showHex 2 n
  else if n < 65536 then '\\' :: 'u' :: showHex 4 n
  else '\\' :: 'U' :: showHex 8 n

/-- The text between quotation marks. -/
def quoted (s : String) : String :=
  let mark := quoteMark s.toList
  String.ofList (mark :: s.toList.flatMap (quotedChar mark) ++ [mark])

/-- A surrogate as an escape. -/
def escapedSurrogate (n : Fin 2048) : List Char := '\\' :: 'u' :: showHex 4 (0xD800 + n.val)

/-- A letter between quotation marks `mark`. -/
def quotedLetter (mark : Char) : Letter → List Char
  | .char c => quotedChar mark c
  | .surrogate n => escapedSurrogate n

/-- The characters of a text, with its surrogates left out. -/
def charsOf (s : Letters) : List Char :=
  s.filterMap fun | .char c => some c | .surrogate _ => none

/-- The text between quotation marks. -/
def quotedLetters (s : Letters) : Letters :=
  let mark := quoteMark (charsOf s)
  letters (mark :: s.flatMap (quotedLetter mark) ++ [mark])

/-- A text with escapes for its surrogates. -/
def escapeSurrogates (s : Letters) : String :=
  String.ofList (s.flatMap fun | .char c => [c] | .surrogate n => escapedSurrogate n)

end LineCensus.Text
