import LineCensus.Decimal.Dyadic

namespace LineCensus.Decimal

open Text

/-!
# The shortest decimal that reads back

* `digitCount` — the place of the leading digit.
* `shortest` — the fewest digits of a decimal that is nearer to the given floating-point number
  than to any other, and of those the nearest.
* `showShortest` — its text: positional from a ten-thousandth to below ten to the sixteenth, with
  an exponent beyond, and always with a mark that it is no whole number.
-/

/-- The number of digits before the decimal point; zero or negative if the leading digit comes
    after it. -/
def digitCount (num den : Nat) : Int :=
  if den ≤ num then (showNat (num / den)).length
  else match (List.range 400).find? (fun j => den ≤ num * Nat.pow 10 j) with
    | some j => 1 - (j : Int)
    | none => 0

/-- The two factors by which a decimal in units of `10 ^ k` and a number in units of `2 ^ e` are
    brought to one unit. -/
def commonUnits (k e : Int) : Nat × Nat :=
  (Nat.pow 10 k.toNat * Nat.pow 2 (-e).toNat, Nat.pow 2 e.toNat * Nat.pow 10 (-k).toNat)

/-- The decimal in units of `10 ^ k` that rounds to `d`, if there is one; the nearer one of two. -/
def onGrid? (d : Dyadic) (k : Int) : Option Nat :=
  let (a, b) := commonUnits k (d.exponent - 2)
  let centre := 4 * d.mantissa * b
  -- Below a power of two the numbers stand half as far apart.
  let step := if d.mantissa == Nat.pow 2 52 && d.exponent != -1074 then 1 else 2
  let low := (4 * d.mantissa - step) * b
  let high := (4 * d.mantissa + 2) * b
  -- The two bounds round to the number itself if it is even.
  let fits (c : Nat) : Bool :=
    if d.mantissa % 2 = 0 then low ≤ c * a && c * a ≤ high else low < c * a && c * a < high
  let c := centre / a
  let up := c + 1
  match fits c, fits up with
  | false, false => none
  | true, false => some c
  | false, true => some up
  | true, true =>
    let below := centre - c * a
    let above := up * a - centre
    some (if below < above || (below == above && c % 2 == 0) then c else up)

/-- Removes the zeros at the end of the digits. -/
def dropZeros : Nat → Nat → Int → Nat × Int
  | 0, c, k => (c, k)
  | fuel + 1, c, k => if c % 10 = 0 && c != 0 then dropZeros fuel (c / 10) (k + 1) else (c, k)

/-- Digits and power of ten of the shortest decimal that rounds to the magnitude of `d`. -/
def shortest (d : Dyadic) : Nat × Int :=
  let count := digitCount d.ratio.1 d.ratio.2
  -- Seventeen digits tell any two numbers apart.
  let found := (List.range 17).findSome? fun n =>
    let k := count - (n + 1 : Nat)
    (onGrid? d k).map (·, k)
  match found with
  | some (c, k) => dropZeros 20 c k
  | none => (d.mantissa, d.exponent)

/-- Digits with a decimal point after the first `point` of them. -/
def positional (digits : List Char) (point : Int) : List Char :=
  let n := digits.length
  if point ≤ 0 then '0' :: '.' :: List.replicate (-point).toNat '0' ++ digits
  else if (n : Int) ≤ point then digits ++ List.replicate (point.toNat - n) '0' ++ ['.', '0']
  else digits.take point.toNat ++ '.' :: digits.drop point.toNat

/-- Digits with a power of ten behind them, which has a sign and at least two digits. -/
def withExponent (digits : List Char) (power : Int) : List Char :=
  let fraction := match digits.drop 1 with
    | [] => []
    | rest => '.' :: rest
  digits.take 1 ++ fraction ++ 'e' :: (if power < 0 then '-' else '+') ::
    padLeft 2 '0' (showNat power.natAbs)

/-- The shortest text of a floating-point number. -/
def showShortest (x : Float) : String :=
  match Dyadic.ofFloat? x with
  | none => if x.isNaN then "NaN" else if x < 0 then "-Infinity" else "Infinity"
  | some d =>
    let body :=
      if d.mantissa = 0 then ['0', '.', '0']
      else
        let (c, k) := shortest d
        let digits := showNat c
        let point := digits.length + k
        if -4 < point && point ≤ 16 then positional digits point
        else withExponent digits (point - 1)
    String.ofList (if d.negative then '-' :: body else body)

end LineCensus.Decimal
