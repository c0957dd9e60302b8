import LineCensus.Text.Digit

namespace LineCensus.Decimal

open Text

/-!
# Floating-point numbers as exact fractions

* `Dyadic` — a finite floating-point number as a signed product of a whole number and a power of
  two.
* `nearest` — a quotient rounded to the nearest whole number, a half to the even neighbour.
* `ofRatio` — the floating-point number nearest to a fraction.
* `roundTo` — a floating-point number rounded to a number of decimal places, and `showFixed` its
  text with exactly that many places.
-/

/-- The number `± mantissa · 2 ^ exponent`. -/
structure Dyadic where
  negative : Bool
  mantissa : Nat
  exponent : Int
  deriving DecidableEq, Repr

/-- The first number too large for 64 bits with a sign. -/
def wordBound : Nat := 9223372036854775808

/-- Whether a number fits 64 bits with a sign. -/
def isWord (n : Int) : Bool := -(wordBound : Int) ≤ n && n < (wordBound : Int)

/-- The value of a finite floating-point number. -/
def Dyadic.ofFloat? (x : Float) : Option Dyadic :=
  let bits : Nat := x.toBits.toNat
  let fraction : Nat := bits % Nat.pow 2 52
  let biased : Nat := bits / Nat.pow 2 52 % 2048
  let negative := bits / Nat.pow 2 63 == 1
  -- Infinities and NaN; numbers too small for a leading one; all others, with theirs.
  if biased == 2047 then none
  else if biased == 0 then some ⟨negative, fraction, -1074⟩
  else some ⟨negative, Nat.pow 2 52 + fraction, (biased : Int) - 1075⟩

/-- Numerator and denominator of the magnitude. -/
def Dyadic.ratio (d : Dyadic) : Nat × Nat :=
  if 0 ≤ d.exponent then (d.mantissa * Nat.pow 2 d.exponent.toNat, 1)
  else (d.mantissa, Nat.pow 2 (-d.exponent).toNat)

/-- The whole number nearest to a fraction, the even one of two. -/
def nearest (num den : Nat) : Nat :=
  let q := num / den
  let r := num % den
  if 2 * r < den then q
  else if den < 2 * r then q + 1
  else if q % 2 = 0 then q else q + 1

/-- The fraction `num / den` in units of `2 ^ q`, to the nearest unit. -/
def nearestUnits (num den : Nat) (q : Int) : Nat :=
  if 0 ≤ q then nearest num (den * Nat.pow 2 q.toNat)
  else nearest (num * Nat.pow 2 (-q).toNat) den

/-- The floating-point number nearest to a fraction with a denominator that is not zero. -/
def ofRatio (num den : Nat) : Float :=
  if num = 0 then 0.0
  else
    let q : Int := (num.log2 : Int) - (den.log2 : Int) - 53
    -- The quotient may have one bit too many, and no unit is smaller than the least.
    let wide : Bool :=
      if 0 ≤ q then den * Nat.pow 2 (q.toNat + 53) ≤ num
      else den * Nat.pow 2 53 ≤ num * Nat.pow 2 (-q).toNat
    let q := if wide then q + 1 else q
    let q := if q < -1074 then -1074 else q
    (Float.ofNat (nearestUnits num den q)).scaleB q

/-- The floating-point number nearest to `digits · 10 ^ exponent`. -/
def ofDecimal (digits : Nat) (exponent : Int) : Float :=
  let size : Int := (showNat digits).length + exponent
  -- Far beyond the floats on either side nothing has to be computed.
  if digits = 0 || size < -400 then 0.0
  else if 400 < size then 1.0 / 0.0
  else if 0 ≤ exponent then ofRatio (digits * Nat.pow 10 exponent.toNat) 1
  else ofRatio digits (Nat.pow 10 (-exponent).toNat)

/-- The magnitude in units of the last of `places` decimal places, to the nearest unit. -/
def Dyadic.places (d : Dyadic) (places : Nat) : Nat :=
  nearest (d.ratio.1 * Nat.pow 10 places) d.ratio.2

/-- The number rounded to `places` decimal places. -/
def roundTo (places : Nat) (x : Float) : Float :=
  match Dyadic.ofFloat? x with
  | none => x
  | some d =>
    let magnitude := ofRatio (d.places places) (Nat.pow 10 places)
    if d.negative then -magnitude else magnitude

/-- The text of a number that is not finite. -/
def showSpecial (x : Float) : String :=
  if x.isNaN then "nan" else if x < 0 then "-inf" else "inf"

/-- A number with exactly `places` decimal places, its whole part shown by `whole`. -/
def showFixedWith (whole : Nat → List Char) (places : Nat) (x : Float) : String :=
  match Dyadic.ofFloat? x with
  | none => showSpecial x
  | some d =>
    let units := d.places places
    let fraction := if places = 0 then [] else
      '.' :: padLeft places '0' (showNat (units % Nat.pow 10 places))
    let sign := if d.negative then ['-'] else []
    String.ofList (sign ++ whole (units / Nat.pow 10 places) ++ fraction)

/-- A number with exactly `places` decimal places. -/
def showFixed (places : Nat) (x : Float) : String := showFixedWith showNat places x

/-- A number with exactly `places` decimal places and commas between groups of three digits. -/
def showFixedGrouped (places : Nat) (x : Float) : String := showFixedWith groupedNat places x

end LineCensus.Decimal
