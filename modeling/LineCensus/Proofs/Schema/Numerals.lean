import LineCensus.Proofs.Text.Digit
import LineCensus.Proofs.Schema.Fields

namespace LineCensus.Schema

open Text

/-!
# Numbers written as texts

* `Short` — a number with no more digits than are read.
* `integerText_numeral` — the digits of a number are read as that number, if it is short.
* `reads_count_numeral` — they are a number of things exactly then.
-/

/-- A number that has no more digits than are read. -/
def Short (n : Nat) : Prop := (showNat n).length ≤ maxDigits

instance (n : Nat) : Decidable (Short n) := inferInstanceAs (Decidable (_ ≤ _))

/-- A number is short or has more digits than are read. -/
theorem not_short_iff {n : Nat} : ¬ Short n ↔ maxDigits < (showNat n).length := Nat.not_le

/-- The digits of a number are a plain integer. -/
theorem plainInteger_showNat (n : Nat) :
    plainInteger (showNat n) = if maxDigits < (showNat n).length then .error .tooLarge else .ok n := by
  rcases Nat.eq_zero_or_pos n with rfl | hn
  · rfl
  obtain ⟨c, s, hs, hc⟩ := showNat_eq_cons n
  -- The first digit is neither a sign nor a zero, so every character counts as a digit.
  have hsign : c ≠ '-' := ne_of_isDigit hc (by decide)
  have hzero : c ≠ '0' := by
    have hhead := head?_showNat hn
    rw [hs, List.head?_cons, ne_eq, Option.some.injEq] at hhead
    exact hhead
  have hdigits : ∀ d ∈ c :: s, isDigit d = true := fun d hd => isDigit_of_mem_showNat (hs ▸ hd)
  have htake : (c :: s).takeWhile isDigit = c :: s := by
    have hend : EndsDigits [] := by
      intro d hd
      cases hd
    have h := takeWhile_digits hdigits hend
    rwa [List.append_nil] at h
  have hvalue : readDigits (c :: s) = n := hs ▸ readDigits_showNat n
  rw [hs, plainInteger]
  · simp only [htake, Nat.sub_self, Nat.zero_add, List.isEmpty_cons, lt_self_iff_false,
      decide_false, Bool.or_self, Bool.false_eq_true, if_false, hvalue, Int.one_mul]
  · intro t h
    exact hsign (List.cons.inj h).1
  · intro h
    exact hzero (List.cons.inj h).1
  · intro t h
    exact hzero (List.cons.inj h).1

/-- **Digits.**  They are read as the number, if there are not too many of them. -/
theorem integerText_numeral (n : Nat) :
    integerText (numeral n) =
      if maxDigits < (showNat n).length then .error .tooLarge else .ok (n : Int) := by
  rw [integerText, numeral, String.toList_ofList, plainInteger_showNat]
  by_cases h : maxDigits < (showNat n).length
  · rw [if_pos h]
  · rw [if_neg h]

/-- **Numerals.**  The digits of a number are read as that number of things, if there are not too
    many of them. -/
theorem reads_count_numeral (n : Nat) :
    Reads (count (.text (ofString (numeral n)))) n (Short n) := by
  intro m
  have hnumeral : string? (ofString (numeral n)) = some (numeral n) := string?_ofString _
  have hbound : ¬(n : Int) < (0 : Nat) := by omega
  rw [count, integerFrom, integer, hnumeral, Option.map_some, integerText_numeral]
  by_cases h : maxDigits < (showNat n).length
  · simp [if_pos h, refuse, not_short_iff.2 h]
  · simp only [if_neg h, hbound, if_false, Int.toNat_natCast, Except.ok.injEq]
    have hshort : Short n := Nat.le_of_not_lt h
    simp only [hshort, and_true, eq_comm]

end LineCensus.Schema
