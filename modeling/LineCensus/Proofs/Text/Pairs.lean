import LineCensus.Proofs.Text.Letter
import LineCensus.Proofs.Text.Utf16

namespace LineCensus.Text

/-!
# Pairs of surrogates

Two surrogates that stand side by side are two letters, and no character.  Where a text is spelled in
units of sixteen bits they look like the character of the pair.

* `joinPairs` — the text with such pairs as characters.
* `joinPairs_eq_self_iff` — the texts without pairs are the same then.
* `hasSplitPair_joinPairs` — afterwards there are none.
-/

/-! ### Halves of pairs -/

/-- No character has a first surrogate as its code point. -/
theorem isHighSurrogate_toNat (c : Char) : isHighSurrogate c.toNat = false :=
  (Bool.or_eq_false_iff.1 (not_surrogate c)).1

/-- Nor does one have a second surrogate. -/
theorem isLowSurrogate_toNat (c : Char) : isLowSurrogate c.toNat = false :=
  (Bool.or_eq_false_iff.1 (not_surrogate c)).2

/-- The first halves of pairs are known by their code points. -/
theorem isHighSurrogate_code (a : Letter) : isHighSurrogate a.code = a.isHigh := by
  cases a with
  | char c => exact isHighSurrogate_toNat c
  | surrogate n =>
    rw [Letter.code, isHighSurrogate, Letter.isHigh, Bool.eq_iff_iff]
    simp only [Bool.and_eq_true, decide_eq_true_eq]
    omega

/-- So are the second ones. -/
theorem isLowSurrogate_code (a : Letter) : isLowSurrogate a.code = a.isLow := by
  cases a with
  | char c => exact isLowSurrogate_toNat c
  | surrogate n =>
    have hn := n.isLt
    rw [Letter.code, isLowSurrogate, Letter.isLow, Bool.eq_iff_iff]
    simp only [Bool.and_eq_true, decide_eq_true_eq]
    omega

/-- The character of a pair of surrogates. -/
def pairChar (a b : Letter) : Char := Char.ofNat (joinSurrogates a.code b.code)

/-- The units of that character are the two surrogates. -/
theorem unitsOf_pairChar {a b : Letter} (ha : a.isHigh = true) (hb : b.isLow = true) :
    unitsOf (pairChar a b) = [a.code, b.code] :=
  unitsOf_joinSurrogates ((isHighSurrogate_code a).trans ha) ((isLowSurrogate_code b).trans hb)

/-! ### Texts -/

/-- The text with pairs of surrogates as the characters they stand for. -/
def joinPairs : Letters → Letters
  | [] => []
  | [a] => [a]
  | a :: b :: s =>
    if a.isHigh && b.isLow then .char (pairChar a b) :: joinPairs s else a :: joinPairs (b :: s)

section Front

variable {a b : Letter} (s : Letters)

/-- A pair at the front is one character. -/
theorem joinPairs_pair (h : (a.isHigh && b.isLow) = true) :
    joinPairs (a :: b :: s) = .char (pairChar a b) :: joinPairs s := by
  rw [joinPairs, if_pos h]

/-- Any other letter at the front stays. -/
theorem joinPairs_cons (h : ¬(a.isHigh && b.isLow) = true) :
    joinPairs (a :: b :: s) = a :: joinPairs (b :: s) := by
  rw [joinPairs, if_neg h]

end Front

/-- A text without pairs is the same. -/
theorem joinPairs_of_hasSplitPair {s : Letters} (h : hasSplitPair s = false) : joinPairs s = s := by
  induction s using joinPairs.induct with
  | case1 => rfl
  | case2 a => rfl
  | case3 a b s hpair ih =>
    rw [hasSplitPair, hpair, Bool.true_or] at h
    cases h
  | case4 a b s hpair ih => rw [joinPairs_cons s hpair, ih (hasSplitPair_of_cons h)]

/-- Of a second surrogate at the front there is one in the text already. -/
theorem isLow_head?_joinPairs {s : Letters} {a : Letter} (h : (joinPairs s).head? = some a)
    (ha : a.isLow = true) : s.head? = some a := by
  cases s with
  | nil => exact h
  | cons b s =>
    cases s with
    | nil => exact h
    | cons c s =>
      by_cases hpair : (b.isHigh && c.isLow) = true
      · rw [joinPairs_pair s hpair] at h
        obtain rfl : Letter.char (pairChar b c) = a := Option.some.inj h
        cases ha
      · rw [joinPairs_cons s hpair] at h
        exact h

/-- **No pairs are left.** -/
theorem hasSplitPair_joinPairs (s : Letters) : hasSplitPair (joinPairs s) = false := by
  -- What stands behind a letter is a character, or it stood there before.
  have hcons {a : Letter} {t : Letters} (ht : hasSplitPair t = false)
      (hhead : ∀ b ∈ t.head?, (a.isHigh && b.isLow) = false) : hasSplitPair (a :: t) = false := by
    cases t with
    | nil => rfl
    | cons b t => rw [hasSplitPair, hhead b rfl, ht, Bool.false_or]
  induction s using joinPairs.induct with
  | case1 => rfl
  | case2 a => rfl
  | case3 a b s hpair ih =>
    rw [joinPairs_pair s hpair]
    exact hcons ih fun _ _ => rfl
  | case4 a b s hpair ih =>
    rw [joinPairs_cons s hpair]
    refine hcons ih fun c hc => ?_
    cases hlow : c.isLow with
    | false => exact Bool.and_false _
    | true =>
      obtain rfl : b = c := Option.some.inj (isLow_head?_joinPairs hc hlow)
      rw [hlow] at hpair
      exact Bool.eq_false_iff.2 hpair

/-- **Texts that stay as they are.**  They are those without pairs. -/
theorem joinPairs_eq_self_iff {s : Letters} : joinPairs s = s ↔ hasSplitPair s = false :=
  ⟨fun h => h ▸ hasSplitPair_joinPairs s, joinPairs_of_hasSplitPair⟩

@[simp] theorem joinPairs_ofString (s : String) : joinPairs (ofString s) = ofString s :=
  joinPairs_of_hasSplitPair (hasSplitPair_ofString s)

end LineCensus.Text
