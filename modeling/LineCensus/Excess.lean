import LineCensus.Text.Digit

namespace LineCensus

open Text

/-!
# Documents beyond the bounds of their readers

* `Excess` — a number with too many digits, or values nested too deeply.
* `maxDigits`, `maxNesting` — the bounds.
* `Excess.text` — what is too much, in words.
-/

/-- What a document has too much of. -/
inductive Excess where
  | digits (count : Nat)
  | nesting
  deriving DecidableEq, Repr

/-- The most digits of a whole number. -/
def maxDigits : Nat := 4300

/-- The most that nested values may weigh together.  Each format says what one level weighs. -/
def maxNesting : Nat := 984

/-- What is too much, in words. -/
def Excess.text : Excess → String
  | .digits count =>
    "Exceeds the limit (" ++ numeral maxDigits ++ " digits) for integer string conversion: " ++
      "value has " ++ numeral count ++
      " digits; use sys.set_int_max_str_digits() to increase the limit"
  | .nesting => "maximum recursion depth exceeded"

/-- A whole number from its digits, unless they are too many. -/
def readWithin (digits : List Char) : Except Excess Nat :=
  if maxDigits < digits.length then .error (.digits digits.length) else .ok (readDigits digits)

end LineCensus
