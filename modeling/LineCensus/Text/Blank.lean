namespace LineCensus.Text

/-!
# Blank characters and trimming

* `isWhiteSpace` — the `White_Space` property of the Unicode standard.
* `isBlank` — white space together with the four information separators.
* `trim`, `strip` — a text without the blanks at its two ends.
* `allBlank` — a text with nothing but blanks in it.
-/

/-- A character with the `White_Space` property. -/
def isWhiteSpace (c : Char) : Bool :=
  let n := c.toNat
  (9 ≤ n && n ≤ 13) || n == 32 || n == 0x85 || n == 0xA0 || n == 0x1680 ||
    (0x2000 ≤ n && n ≤ 0x200A) || n == 0x2028 || n == 0x2029 || n == 0x202F || n == 0x205F ||
    n == 0x3000

/-- White space or one of the information separators U+001C to U+001F. -/
def isBlank (c : Char) : Bool :=
  isWhiteSpace c || (28 ≤ c.toNat && c.toNat ≤ 31)

/-- The text without the characters of class `p` at its two ends. -/
def trimBy (p : Char → Bool) (s : List Char) : List Char :=
  ((s.dropWhile p).reverse.dropWhile p).reverse

/-- The text without the blanks at its two ends. -/
def trim (s : List Char) : List Char := trimBy isBlank s

/-- The text has no character that is not blank. -/
def allBlank (s : List Char) : Bool := s.all isBlank

/-- `trim` on strings. -/
def strip (s : String) : String := String.ofList (trim s.toList)

end LineCensus.Text
