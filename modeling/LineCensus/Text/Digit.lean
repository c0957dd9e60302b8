namespace LineCensus.Text

/-!
# Decimal digits

* `digitValue?` — the value of an ASCII digit.
* `isDecimalDigit` — membership in the decimal digits of all scripts.
* `readDigits` — the number that a list of ASCII digits writes.
* `showNat`, `showInt`, `numeral`, `intNumeral` — a number in decimal; `groupedNat` and
  `groupedInt` put a comma between groups of three digits.
-/

/-- The first character of each run of ten decimal digits that a number may be written with. -/
def digitBlocks : List Nat :=
  [0x30, 0x660, 0x6F0, 0x7C0, 0x966, 0x9E6, 0xA66, 0xAE6, 0xB66, 0xBE6, 0xC66, 0xCE6, 0xD66,
   0xDE6, 0xE50, 0xED0, 0xF20, 0x1040, 0x1090, 0x17E0, 0x1810, 0x1946, 0x19D0, 0x1A80, 0x1A90,
   0x1B50, 0x1BB0, 0x1C40, 0x1C50, 0xA620, 0xA8D0, 0xA900, 0xA9D0, 0xA9F0, 0xAA50, 0xABF0,
   0xFF10, 0x104A0, 0x10D30, 0x11066, 0x110F0, 0x11136, 0x111D0, 0x112F0, 0x11450, 0x114D0,
   0x11650, 0x116C0, 0x11730, 0x118E0, 0x11950, 0x11C50, 0x11D50, 0x11DA0, 0x16A60, 0x16AC0,
   0x16B50, 0x1D7CE, 0x1D7D8, 0x1D7E2, 0x1D7EC, 0x1D7F6, 0x1E140, 0x1E2F0, 0x1E950, 0x1FBF0]

/-- The first character of each run of ten decimal digits that came into use later. -/
def laterDigitBlocks : List Nat :=
  [0x10D40, 0x116D0, 0x116DA, 0x11BF0, 0x11F50, 0x16130, 0x16D70, 0x1CCF0, 0x1E4F0, 0x1E5F1]

/-- A decimal digit of some script. -/
def isDecimalDigit (c : Char) : Bool :=
  (digitBlocks ++ laterDigitBlocks).any fun b => b ≤ c.toNat && c.toNat ≤ b + 9

/-- A digit `0` to `9`. -/
def isDigit (c : Char) : Bool := 48 ≤ c.toNat && c.toNat ≤ 57

/-- The value of a digit `0` to `9`. -/
def digitValue? (c : Char) : Option Nat :=
  if isDigit c then some (c.toNat - 48) else none

/-- The number written by a list of ASCII digits, most significant first. -/
def readDigits (s : List Char) : Nat :=
  Nat.ofDigitChars 10 s 0

/-- The value of a hexadecimal digit of either case. -/
def hexValue? (c : Char) : Option Nat :=
  let n := c.toNat
  if 48 ≤ n && n ≤ 57 then some (n - 48)
  else if 97 ≤ n && n ≤ 102 then some (n - 87)
  else if 65 ≤ n && n ≤ 70 then some (n - 55)
  else none

/-- The character of a digit below sixteen, in lowercase. -/
def hexDigit (n : Nat) : Char :=
  if n < 10 then Char.ofNat (48 + n) else Char.ofNat (87 + n)

/-- The lowest `width` hexadecimal digits of `n`. -/
def showHex (width n : Nat) : List Char :=
  (List.range width).reverse.map fun i => hexDigit (n / Nat.pow 16 i % 16)

/-- A number in decimal, without leading zeros. -/
def showNat (n : Nat) : List Char := Nat.toDigits 10 n

/-- An integer in decimal. -/
def showInt : Int → List Char
  | .ofNat n => showNat n
  | .negSucc n => '-' :: showNat (n + 1)

/-- A number in decimal, as a string. -/
def numeral (n : Nat) : String := String.ofList (showNat n)

/-- An integer in decimal, as a string. -/
def intNumeral (n : Int) : String := String.ofList (showInt n)

/-- Puts a comma after every third character, counted from the front. -/
def groupThrees : List Char → List Char
  | a :: b :: c :: d :: rest => a :: b :: c :: ',' :: groupThrees (d :: rest)
  | s => s

/-- A number in decimal with its digits in groups of three. -/
def groupedNat (n : Nat) : List Char := (groupThrees (showNat n).reverse).reverse

/-- An integer in decimal with its digits in groups of three. -/
def groupedInt : Int → List Char
  | .ofNat n => groupedNat n
  | .negSucc n => '-' :: groupedNat (n + 1)

/-- `s` at the right end of a field of `width` characters filled with `fill`. -/
def padLeft {α : Type} (width : Nat) (fill : α) (s : List α) : List α :=
  List.replicate (width - s.length) fill ++ s

/-- `s` at the left end of a field of `width` characters filled with `fill`. -/
def padRight {α : Type} (width : Nat) (fill : α) (s : List α) : List α :=
  s ++ List.replicate (width - s.length) fill

end LineCensus.Text
