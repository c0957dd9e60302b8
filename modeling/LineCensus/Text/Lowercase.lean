import LineCensus.Text.CaseTable

namespace LineCensus.Text

/-!
# Lowercase

* `lowerChar` — the lowercase form of one character, which is two characters for a dotted capital I.
* `lowerFrom` — a text in lowercase, given what stands before it; a capital sigma that ends a word
  takes its final form.
* `lower`, `lowercase` — a whole text in lowercase.
-/

/-- The lowercase form of a character away from any context. -/
def lowerChar (c : Char) : List Char :=
  let n := c.toNat
  if n < 128 then
    if 65 ≤ n && n ≤ 90 then [Char.ofNat (n + 32)] else [c]
  -- The capital I with a dot is the only one whose lowercase has two characters.
  else if n == 0x130 then ['i', Char.ofNat 0x307]
  else match lowercaseRuns.find? (·.covers n) with
    | some run => [Char.ofNat (n + run.shift).toNat]
    | none => [c]

/-- A character that is passed over when the neighbours of a sigma are examined. -/
def isCaseIgnorable (c : Char) : Bool := inRanges caseIgnorableRanges c.toNat

/-- The first character that is not case-ignorable is a cased letter. -/
def meetsCased (s : List Char) : Bool :=
  match s.dropWhile isCaseIgnorable with
  | c :: _ => inRanges casedRanges c.toNat
  | [] => false

/-- The lowercase form of `s`, where `before` is what precedes it, nearest character first. -/
def lowerFrom (before : List Char) : List Char → List Char
  | [] => []
  | c :: s =>
    let here :=
      -- A capital sigma at the end of a word has a lowercase form of its own.
      if c.toNat == 0x3A3 then
        [Char.ofNat (if meetsCased before && !meetsCased s then 0x3C2 else 0x3C3)]
      else lowerChar c
    here ++ lowerFrom (c :: before) s

/-- A text in lowercase. -/
def lower (s : List Char) : List Char := lowerFrom [] s

/-- `lower` on strings. -/
def lowercase (s : String) : String := String.ofList (lower s.toList)

end LineCensus.Text
