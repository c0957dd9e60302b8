import LineCensus.Text.Utf16

namespace LineCensus.Text

/-!
# Surrogates

* `toNat_bounds`, `toNat_ofNat_of_valid`, `not_surrogate` — the code points of characters are all
  but the surrogates.
* `unitsOf_small`, `unitsOf_large` — a character is one unit, or a pair of surrogates.
* `joinSurrogates_units` — the pair of a character stands for that character.
* `unitsOf_ofNat`, `unitsOf_joinSurrogates` — and every other unit and every pair stand for one.
-/

/-- The code points of characters leave out the surrogates. -/
theorem toNat_bounds (c : Char) :
    c.toNat < 0xD800 ∨ 0xE000 ≤ c.toNat ∧ c.toNat < 0x110000 := by
  rcases c.valid with h | ⟨h₁, h₂⟩
  · exact .inl h
  · exact .inr ⟨h₁, h₂⟩

/-- Any other code point is that of a character. -/
theorem toNat_ofNat_of_valid {n : Nat} (h : n < 0xD800 ∨ 0xE000 ≤ n ∧ n < 0x110000) :
    (Char.ofNat n).toNat = n := by
  have hvalid : n.isValidChar := h.imp_right fun h => ⟨Nat.lt_of_lt_of_le (by decide) h.1, h.2⟩
  exact congrArg Char.toNat (dif_pos hvalid)

/-- No character has the number of a surrogate. -/
theorem not_surrogate (c : Char) :
    (isHighSurrogate c.toNat || isLowSurrogate c.toNat) = false := by
  have h := toNat_bounds c
  simp only [isHighSurrogate, isLowSurrogate, Bool.or_eq_false_iff, Bool.and_eq_false_iff,
    decide_eq_false_iff_not]
  omega

/-! ### The units of a character -/

/-- The first surrogate of a character beyond the first plane. -/
def highUnit (c : Char) : Nat := 0xD800 + (c.toNat - 0x10000) / 0x400

/-- The second surrogate of a character beyond the first plane. -/
def lowUnit (c : Char) : Nat := 0xDC00 + (c.toNat - 0x10000) % 0x400

/-- A character of the first plane is one unit. -/
theorem unitsOf_small {c : Char} (h : c.toNat < 0x10000) : unitsOf c = [c.toNat] := if_pos h

/-- Any other one is two. -/
theorem unitsOf_large {c : Char} (h : ¬c.toNat < 0x10000) : unitsOf c = [highUnit c, lowUnit c] :=
  if_neg h

/-- The first of the two is a first surrogate. -/
theorem highUnit_bounds (c : Char) : 0xD800 ≤ highUnit c ∧ highUnit c < 0xDC00 := by
  have h := toNat_bounds c
  simp only [highUnit]
  omega

/-- The second is a second one. -/
theorem lowUnit_bounds (c : Char) : 0xDC00 ≤ lowUnit c ∧ lowUnit c < 0xE000 := by
  simp only [lowUnit]
  omega

/-- The first of them has sixteen bits. -/
theorem highUnit_lt (c : Char) : highUnit c < 0x10000 :=
  Nat.lt_trans (highUnit_bounds c).2 (by decide)

/-- So has the second. -/
theorem lowUnit_lt (c : Char) : lowUnit c < 0x10000 :=
  Nat.lt_trans (lowUnit_bounds c).2 (by decide)

@[simp] theorem isHighSurrogate_highUnit (c : Char) : isHighSurrogate (highUnit c) = true := by
  have h := highUnit_bounds c
  simp only [isHighSurrogate, Bool.and_eq_true, decide_eq_true_eq]
  exact h

@[simp] theorem isLowSurrogate_lowUnit (c : Char) : isLowSurrogate (lowUnit c) = true := by
  have h := lowUnit_bounds c
  simp only [isLowSurrogate, Bool.and_eq_true, decide_eq_true_eq]
  exact h

/-- **Pairs are read back.**  The two surrogates of a character stand for its code point. -/
theorem joinSurrogates_units {c : Char} (h : ¬c.toNat < 0x10000) :
    joinSurrogates (highUnit c) (lowUnit c) = c.toNat := by
  have hle : 0x10000 ≤ c.toNat := Nat.le_of_not_lt h
  unfold joinSurrogates highUnit lowUnit
  generalize c.toNat = n at hle ⊢
  omega

/-! ### The character of some units -/

/-- A unit that is no surrogate is the only one of its character. -/
theorem unitsOf_ofNat {u : Nat} (hu : u < 0x10000) (hhigh : ¬isHighSurrogate u = true)
    (hlow : ¬isLowSurrogate u = true) : unitsOf (Char.ofNat u) = [u] := by
  simp only [isHighSurrogate, isLowSurrogate, Bool.and_eq_true, decide_eq_true_eq] at hhigh hlow
  have hn : (Char.ofNat u).toNat = u := toNat_ofNat_of_valid (by omega)
  rw [unitsOf_small (by omega), hn]

/-- A pair of surrogates are the units of the character that they stand for. -/
theorem unitsOf_joinSurrogates {u v : Nat} (hu : isHighSurrogate u = true)
    (hv : isLowSurrogate v = true) : unitsOf (Char.ofNat (joinSurrogates u v)) = [u, v] := by
  simp only [isHighSurrogate, isLowSurrogate, Bool.and_eq_true, decide_eq_true_eq] at hu hv
  have hjoin : joinSurrogates u v = 0x10000 + (u - 0xD800) * 0x400 + (v - 0xDC00) := rfl
  have hn : (Char.ofNat (joinSurrogates u v)).toNat = joinSurrogates u v :=
    toNat_ofNat_of_valid (by omega)
  have hhigh : highUnit (Char.ofNat (joinSurrogates u v)) = u := by
    rw [highUnit, hn]
    omega
  have hlow : lowUnit (Char.ofNat (joinSurrogates u v)) = v := by
    rw [lowUnit, hn]
    omega
  rw [unitsOf_large (by omega), hhigh, hlow]

end LineCensus.Text
