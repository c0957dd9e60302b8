import LineCensus.Metrics
import Mathlib.Algebra.Order.Field.Rat
import Mathlib.Tactic.Positivity

namespace LineCensus

open Text

/-!
# Measurements in exact numbers

* `Decimal.roundExact`, `Decimal.showExact` — fractions rounded to decimal places as floating-point
  numbers are, and their texts.
* `Gauge ℚ` — times and counts as fractions.
* `span_nonneg`, `span_nonpos` — the time between two readings has the sign of their difference.
-/

namespace Decimal

/-- The magnitude of a fraction in units of the last of `places` decimal places, to the nearest
    unit. -/
def exactUnits (places : Nat) (x : ℚ) : Nat := nearest (x.num.natAbs * 10 ^ places) x.den

/-- A fraction rounded to `places` decimal places, a half to the even neighbour. -/
def roundExact (places : Nat) (x : ℚ) : ℚ :=
  let magnitude : ℚ := exactUnits places x / 10 ^ places
  if x < 0 then -magnitude else magnitude

/-- A fraction with exactly `places` decimal places. -/
def showExact (places : Nat) (x : ℚ) : String :=
  let units := exactUnits places x
  let fraction := if places = 0 then [] else
    '.' :: padLeft places '0' (showNat (units % 10 ^ places))
  let sign := if x < 0 then ['-'] else []
  String.ofList (sign ++ showNat (units / 10 ^ places) ++ fraction)

variable {places : Nat} {x : ℚ}

/-- Rounding makes no number negative. -/
theorem roundExact_nonneg (h : 0 ≤ x) : 0 ≤ roundExact places x := by
  rw [roundExact, if_neg (not_lt.2 h)]
  positivity

/-- Zero is rounded to zero. -/
theorem roundExact_zero : roundExact places 0 = 0 := by
  simp [roundExact, exactUnits, nearest]

/-- Rounding makes no number positive. -/
theorem roundExact_nonpos (h : x ≤ 0) : roundExact places x ≤ 0 := by
  rcases h.lt_or_eq with hneg | rfl
  · rw [roundExact, if_pos hneg, neg_nonpos]
    positivity
  · exact roundExact_zero.le

end Decimal

instance : Gauge ℚ where
  ofNat n := n
  add := (· + ·)
  sub := (· - ·)
  div := (· / ·)
  isZero x := x == 0
  round := Decimal.roundExact 4
  text := Decimal.showExact 3

@[simp] theorem ofNat_exact (n : Nat) : (Gauge.ofNat n : ℚ) = n := rfl

@[simp] theorem add_exact (x y : ℚ) : Gauge.add x y = x + y := rfl

variable {start stop : ℚ}

/-- No time is negative that ends after its beginning. -/
theorem span_nonneg (h : start ≤ stop) : 0 ≤ span start stop :=
  Decimal.roundExact_nonneg (sub_nonneg.2 h)

/-- None is positive that ends before it. -/
theorem span_nonpos (h : stop ≤ start) : span start stop ≤ 0 :=
  Decimal.roundExact_nonpos (sub_nonpos.2 h)

/-- Half a unit goes to the even neighbour. -/
example : (span (1 / 2) (3 / 4 + 5 / 100000) : ℚ) = 1 / 4 := by decide +kernel

end LineCensus
