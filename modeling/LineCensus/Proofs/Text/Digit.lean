import LineCensus.Text.Digit
import Mathlib.Data.Nat.Basic
import Mathlib.Data.List.TakeWhile

namespace LineCensus.Text

/-!
# Digits read back

* `showNat_of_ge` — a number of more than one digit is written by its tenth and its last digit.
* `head?_showNat` — no number but zero begins with a zero.
* `readDigits_showNat` — the digits of a number are read as that number.
* `takeWhile_digits`, `dropWhile_digits` — a run of digits ends where the digits do.
* `hexValue?_hexDigit`, `showHex_four` — hexadecimal digits.
-/

/-- The digits are those of the library. -/
theorem isDigit_eq (c : Char) : isDigit c = c.isDigit := by
  rw [Bool.eq_iff_iff]
  simp only [isDigit, Char.isDigit, Bool.and_eq_true, decide_eq_true_eq, ge_iff_le,
    UInt32.le_iff_toNat_le]
  exact Iff.rfl

/-! ### Decimal digits -/

/-- The digit of a number below ten stands for that number. -/
theorem digitValue?_digitChar {n : Nat} (h : n < 10) : digitValue? n.digitChar = some n := by
  have all : ∀ n < 10, digitValue? (Nat.digitChar n) = some n := by decide
  exact all n h

/-- A digit is none of the characters that are no digits. -/
theorem ne_of_isDigit {c d : Char} (hc : isDigit c = true) (hd : isDigit d = false) : c ≠ d := by
  rintro rfl
  rw [hc] at hd
  cases hd

/-- A small number is one digit. -/
theorem showNat_of_lt {n : Nat} (h : n < 10) : showNat n = [n.digitChar] :=
  Nat.toDigits_of_lt_base h

/-- A larger one has its last digit at the end. -/
theorem showNat_of_ge {n : Nat} (h : 10 ≤ n) :
    showNat n = showNat (n / 10) ++ [(n % 10).digitChar] := by
  have hpos : 0 < n / 10 := Nat.div_pos h (by decide)
  have hlast : n % 10 < 10 := Nat.mod_lt n (by decide)
  have happend := Nat.toDigits_append_toDigits (b := 10) (by decide) hpos hlast
  rw [Nat.div_add_mod, Nat.toDigits_of_lt_base hlast] at happend
  exact happend.symm

/-- Every number has a digit. -/
theorem showNat_ne_nil (n : Nat) : showNat n ≠ [] := Nat.toDigits_ne_nil

/-- Numbers are made of digits. -/
theorem isDigit_of_mem_showNat {n : Nat} {c : Char} (h : c ∈ showNat n) : isDigit c = true := by
  rw [isDigit_eq]
  exact Nat.isDigit_of_mem_toDigits (by decide) (by decide) h

/-- A number begins with a digit. -/
theorem showNat_eq_cons (n : Nat) : ∃ c s, showNat n = c :: s ∧ isDigit c = true := by
  obtain ⟨c, s, hs⟩ := List.exists_cons_of_ne_nil (showNat_ne_nil n)
  exact ⟨c, s, hs, isDigit_of_mem_showNat (hs ▸ List.mem_cons_self)⟩

/-- **No leading zero.**  A number that is not zero does not begin with the digit of zero. -/
theorem head?_showNat {n : Nat} (h : 0 < n) : (showNat n).head? ≠ some '0' := by
  induction n using Nat.strong_induction_on with
  | _ n ih =>
    by_cases hn : n < 10
    · have all : ∀ n < 10, 0 < n → Nat.digitChar n ≠ '0' := by decide
      rw [showNat_of_lt hn, List.head?_cons, ne_eq, Option.some.injEq]
      exact all n hn h
    · -- The first digit of a longer number is that of its tenth.
      obtain ⟨c, s, hs, -⟩ := showNat_eq_cons (n / 10)
      have hfront := ih (n / 10) (by omega) (by omega)
      rw [hs] at hfront
      rw [showNat_of_ge (Nat.le_of_not_lt hn), hs]
      exact hfront

@[simp] theorem readDigits_showNat (n : Nat) : readDigits (showNat n) = n :=
  Nat.ofDigitChars_ten_toDigits

/-! ### Runs of digits -/

/-- The text does not go on with a digit. -/
def EndsDigits (s : List Char) : Prop := ∀ c ∈ s.head?, isDigit c = false

/-- Digits are taken up to what follows them. -/
theorem takeWhile_digits {digits rest : List Char} (hd : ∀ c ∈ digits, isDigit c = true)
    (hr : EndsDigits rest) : (digits ++ rest).takeWhile isDigit = digits := by
  rw [List.takeWhile_append_of_pos hd]
  cases rest with
  | nil => exact List.append_nil digits
  | cons c rest =>
    rw [List.takeWhile_cons_of_neg (by rw [hr c rfl]; decide), List.append_nil]

/-- What follows them is left. -/
theorem dropWhile_digits {digits rest : List Char} (hd : ∀ c ∈ digits, isDigit c = true)
    (hr : EndsDigits rest) : (digits ++ rest).dropWhile isDigit = rest := by
  rw [List.dropWhile_append_of_pos hd]
  cases rest with
  | nil => rfl
  | cons c rest => exact List.dropWhile_cons_of_neg (by rw [hr c rfl]; decide)

/-! ### Hexadecimal digits -/

/-- A digit in base sixteen is read back. -/
theorem hexValue?_hexDigit {n : Nat} (h : n < 16) : hexValue? (hexDigit n) = some n := by
  have all : ∀ n < 16, hexValue? (hexDigit n) = some n := by decide
  exact all n h

/-- The four digits of a code unit. -/
theorem showHex_four (u : Nat) :
    showHex 4 u = [hexDigit (u / 4096 % 16), hexDigit (u / 256 % 16), hexDigit (u / 16 % 16),
      hexDigit (u / 1 % 16)] := rfl

end LineCensus.Text
