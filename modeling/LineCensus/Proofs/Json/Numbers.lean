import LineCensus.Json.Parser
import LineCensus.Proofs.Text.Digit
import LineCensus.Proofs.Text.Letter

namespace LineCensus.Json

open Text

/-!
# Numbers read back

* `EndsWord` — the text does not go on with anything that could belong to a word or a number.
* `wordFront_append` — the reader takes a word up to where the text ends it.
* `readWhole?_showNat`, `readNumber?_showInt` — a whole number of no more digits than may be read.
* `readPlain_append` — what a word or a number is read as, it is read as in front of a text.
-/

/-- The text goes on with no character of a word or of a number. -/
def EndsWord (s : Letters) : Prop := ∀ c ∈ s.head?, c.isChar isWordChar = false

/-- The end of the text ends a word. -/
theorem endsWord_nil : EndsWord [] := by
  intro c h
  cases h

/-- So does a letter that is no part of one. -/
theorem endsWord_cons {c : Letter} {s : Letters} (h : c.isChar isWordChar = false) :
    EndsWord (c :: s) := by
  intro d hd
  rw [List.head?_cons, Option.mem_some_iff] at hd
  exact hd ▸ h

/-- **Words.**  A word is taken up to where the text ends it. -/
theorem wordFront_append {w : List Char} (hw : ∀ c ∈ w, isWordChar c = true) {s : Letters}
    (hs : EndsWord s) : wordFront (letters w ++ s) = w := by
  induction w with
  | nil =>
    cases s with
    | nil => rfl
    | cons c s =>
      cases c with
      | char c => exact if_neg (Bool.eq_false_iff.1 (hs (.char c) rfl))
      | surrogate n => rfl
  | cons c w ih =>
    have hrest := ih fun d hd => hw d (List.mem_cons_of_mem c hd)
    rw [letters_cons, List.cons_append, wordFront, if_pos (hw c List.mem_cons_self), hrest]

/-! ### Whole numbers -/

/-- A digit may belong to a number. -/
theorem isWordChar_of_isDigit {c : Char} (h : isDigit c = true) : isWordChar c = true := by
  rw [isDigit_eq] at h
  simp only [isWordChar, Char.isAlphanum, h, Bool.or_true, Bool.true_or]

/-- So may the sign in front of the digits. -/
theorem isWordChar_of_mem_showInt {n : Int} {c : Char} (h : c ∈ showInt n) :
    isWordChar c = true := by
  cases n with
  | ofNat n => exact isWordChar_of_isDigit (isDigit_of_mem_showNat h)
  | negSucc n =>
    rcases List.mem_cons.1 h with rfl | h
    · rfl
    · exact isWordChar_of_isDigit (isDigit_of_mem_showNat h)

/-- The digits of a number are its whole part. -/
theorem readWhole?_showNat (n : Nat) : readWhole? (showNat n) = some (showNat n, []) := by
  rcases Nat.eq_zero_or_pos n with rfl | hn
  · rfl
  obtain ⟨c, s, hs, -⟩ := showNat_eq_cons n
  have hc : c ≠ '0' := by
    have hhead := head?_showNat hn
    rw [hs, List.head?_cons, ne_eq, Option.some.injEq] at hhead
    exact hhead
  have hdigits : ∀ d ∈ c :: s, isDigit d = true := by
    intro d hd
    exact isDigit_of_mem_showNat (hs ▸ hd)
  have htake := List.takeWhile_eq_self_iff.2 hdigits
  have hdrop := List.dropWhile_eq_nil_iff.2 hdigits
  rw [hs, readWhole?]
  · simp only [htake, hdrop, List.isEmpty_cons, Bool.false_eq_true, if_false]
  · intro t ht
    exact hc (List.cons.inj ht).1

/-- Digits within the limit are read as their number. -/
theorem readWithin_showNat {n : Nat} (h : (showNat n).length ≤ maxDigits) :
    readWithin (showNat n) = .ok n := by
  rw [readWithin, if_neg (Nat.not_lt.2 h), readDigits_showNat]

/-- **Numbers are read back.**  A whole number is read if it has no more digits than may be read. -/
theorem readNumber?_showInt {n : Int} (hn : (showNat n.natAbs).length ≤ maxDigits) :
    readNumber? (showInt n) = some (.ok (.int n), []) := by
  cases n with
  | ofNat n =>
    have hwhole := readWhole?_showNat n
    have hwithin : readWithin (showNat n) = .ok n := readWithin_showNat hn
    obtain ⟨c, s, hs, hc⟩ := showNat_eq_cons n
    rw [hs] at hwhole hwithin
    rw [showInt, hs, readNumber?]
    · simp only [hwhole, readFraction, readExponent, hwithin, Option.bind_eq_bind,
        Option.bind_some, Option.pure_def, List.isEmpty_nil, Option.isNone_none, Bool.and_self,
        if_true]
      rfl
    · -- The sign of a negative number is no digit.
      intro t ht
      exact ne_of_isDigit hc (by decide) (List.cons.inj ht).1
  | negSucc n =>
    have hwithin : readWithin (showNat (n + 1)) = .ok (n + 1) := readWithin_showNat hn
    rw [showInt, readNumber?]
    simp only [readWhole?_showNat, readFraction, readExponent, hwithin, Option.bind_eq_bind,
      Option.bind_some, Option.pure_def, List.isEmpty_nil, Option.isNone_none, Bool.and_self,
      if_true]
    rfl

/-! ### Words and numbers -/

/-- A word that begins with no digit is not at the front of digits. -/
theorem dropStart?_showNat {a : Char} (ha : isDigit a = false) (token : List Char) (n : Nat) :
    dropStart? (a :: token) (showNat n) = none := by
  obtain ⟨c, s, hs, hc⟩ := showNat_eq_cons n
  rw [hs]
  exact if_neg (ne_of_isDigit hc ha).symm

/-- A word that begins with a letter is not at the front of a number. -/
theorem dropStart?_letter {a : Char} (ha : isDigit a = false) (hm : a ≠ '-') (token : List Char)
    (n : Int) : dropStart? (a :: token) (showInt n) = none := by
  cases n with
  | ofNat n => exact dropStart?_showNat ha token n
  | negSucc n => exact if_neg hm

/-- Neither is a word that begins with a letter behind a minus sign. -/
theorem dropStart?_minus {a : Char} (ha : isDigit a = false) (token : List Char) (n : Int) :
    dropStart? ('-' :: a :: token) (showInt n) = none := by
  cases n with
  | ofNat n => exact dropStart?_showNat (by decide) (a :: token) n
  | negSucc n => exact dropStart?_showNat ha token (n + 1)

/-- **No number is a word.**  A number is read as a number. -/
theorem readWord?_showInt {n : Int} (hn : (showNat n.natAbs).length ≤ maxDigits) :
    readWord? (showInt n) = some (.ok (.int n), []) := by
  have hwords : literals.findSome? (fun e => (dropStart? e.1.toList (showInt n)).map
      fun r => (e.2, r)) = none := by
    rw [List.findSome?_eq_none_iff]
    intro e he
    simp only [literals, List.mem_cons, List.not_mem_nil, or_false] at he
    rw [Option.map_eq_none_iff]
    -- Of the words only the last begins with a sign, and a letter stands behind it.
    rcases he with rfl | rfl | rfl | rfl | rfl | rfl
    · exact dropStart?_letter (by decide) (by decide) _ n
    · exact dropStart?_letter (by decide) (by decide) _ n
    · exact dropStart?_letter (by decide) (by decide) _ n
    · exact dropStart?_letter (by decide) (by decide) _ n
    · exact dropStart?_letter (by decide) (by decide) _ n
    · exact dropStart?_minus (by decide) _ n
  rw [readWord?, hwords, readNumber?_showInt hn]

/-- **Words and numbers in a text.**  What the reader makes of a word by itself, it makes of it in
    front of anything that ends the word. -/
theorem readPlain_append {w : List Char} (hw : ∀ c ∈ w, isWordChar c = true) {v : Value Letters}
    (h : readWord? w = some (.ok v, [])) {rest : Letters} (hrest : EndsWord rest) :
    readPlain (letters w ++ rest) = .ok (v, rest) := by
  rw [readPlain]
  simp only [wordFront_append hw hrest, h, List.length_nil, Nat.sub_zero]
  rw [← length_letters, List.drop_left]

end LineCensus.Json
