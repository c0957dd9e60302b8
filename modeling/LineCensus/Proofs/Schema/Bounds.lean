import LineCensus.Proofs.Schema.Fields
import LineCensus.Proofs.Schema.Numerals
import Mathlib.Data.List.Induction

namespace LineCensus.Schema

open Text

/-!
# Numbers that can be read again

* `Bounded` — a value in which no whole number has more digits than are read.
* `short_of_lt`, `short_readDigits` — numbers of few digits.
* `gives_integerText`, `gives_integerFloat` — numbers that are written as texts or fractions.
* `gives_count` — a number of things that is read from a bounded value can be read again.
* `gives_record`, `gives_records` — what holds of a record that is read from a bounded table, and of
  each of a list of them.
-/

/-- No whole number in the value has more digits than are read. -/
inductive Bounded : Value Letters → Prop where
  | null : Bounded .null
  | bool (b : Bool) : Bounded (.bool b)
  | int {n : Int} (h : Short n.natAbs) : Bounded (.int n)
  | float (x : Float) : Bounded (.float x)
  | text (s : Letters) : Bounded (.text s)
  | calendar : Bounded .calendar
  | list {items : List (Value Letters)} (h : ∀ v ∈ items, Bounded v) : Bounded (.list items)
  | table {entries : List (Letters × Value Letters)} (h : ∀ e ∈ entries, Bounded e.2) :
      Bounded (.table entries)

/-! ### Short numbers -/

/-- A number of few digits is short. -/
theorem short_of_lt {n k : Nat} (hpos : 0 < k) (hk : k ≤ maxDigits) (h : n < Nat.pow 10 k) :
    Short n :=
  Nat.le_trans ((Nat.length_toDigits_le_iff (by decide) hpos).2 h) hk

/-- Digits make a number that has no more of them. -/
theorem readDigits_lt {s : List Char} (h : ∀ c ∈ s, isDigit c = true) :
    readDigits s < Nat.pow 10 s.length := by
  induction s using List.reverseRecOn with
  | nil => decide
  | append_singleton s c ih =>
    have hs := ih fun d hd => h d (List.mem_append_left [c] hd)
    have hc := h c (List.mem_append_right s (List.mem_singleton_self c))
    simp only [isDigit, Bool.and_eq_true, decide_eq_true_eq] at hc
    have hzero : '0'.toNat = 48 := rfl
    have hlast : readDigits (s ++ [c]) = 10 * readDigits s + (c.toNat - '0'.toNat) := by
      rw [readDigits, Nat.ofDigitChars_append, Nat.ofDigitChars_cons]
      rfl
    have hsucc : Nat.pow 10 (s.length + 1) = Nat.pow 10 s.length * 10 := rfl
    rw [hlast, List.length_append, List.length_singleton, hsucc]
    omega

/-- The number of few digits can be read again. -/
theorem short_readDigits {s : List Char} (h : ∀ c ∈ s, isDigit c = true)
    (hlength : s.length ≤ maxDigits) : Short (readDigits s) := by
  cases s with
  | nil => exact short_of_lt (k := 1) (by decide) (by decide) (by decide)
  | cons c s => exact short_of_lt (Nat.succ_pos _) hlength (readDigits_lt h)

/-! ### Whole numbers -/

/-- A number in plain form is short. -/
theorem gives_plainInteger (s : List Char) : Gives (plainInteger s) fun n => Short n.natAbs := by
  intro n hn
  unfold plainInteger at hn
  split at hn
  next unit digits hsign =>
  have hunit : unit.natAbs = 1 := by
    split at hsign <;> cases hsign <;> rfl
  simp only at hn
  split at hn
  · cases hn
    exact short_of_lt (k := 1) (by decide) (by decide) (by decide)
  · cases hn
  · split at hn
    · cases hn
    · next hsize =>
      split at hn
      · cases hn
      · cases hn
        -- The digits were counted before they were read.
        have hdigits : ∀ c ∈ digits.takeWhile isDigit, isDigit c = true :=
          fun c hc => List.mem_takeWhile_imp hc
        have hshort := short_readDigits hdigits (by omega)
        rwa [Int.natAbs_mul, hunit, Nat.one_mul]

/-- The plain form of a text is read in place of the text. -/
theorem gives_integerText (s : String) : Gives (integerText s) fun n => Short n.natAbs := by
  intro n hn
  unfold integerText at hn
  split at hn
  · split at hn
    · exact gives_plainInteger _ n hn
    · cases hn
  · exact gives_plainInteger _ n hn

/-- The whole numbers that are read from fractions fit 64 bits. -/
theorem gives_integerFloat (x : Float) : Gives (integerFloat x) fun n => Short n.natAbs := by
  intro n hn
  unfold integerFloat at hn
  split at hn
  · cases hn
  · next d hd =>
    simp only at hn
    split at hn
    · cases hn
    · split at hn
      · cases hn
      · next hbound =>
        have habs : n.natAbs = d.ratio.1 / d.ratio.2 := by
          cases hn
          split <;> simp only [Int.natAbs_neg, Int.natAbs_natCast]
        rw [habs]
        -- A word has nineteen digits at most.
        have hword : Decimal.wordBound < Nat.pow 10 19 := by decide
        exact short_of_lt (k := 19) (by decide) (by decide) (by omega)

/-- So is every whole number that is read from a bounded value. -/
theorem gives_integer {v : Value Letters} (h : Bounded v) :
    Gives (integer v) fun n => Short n.natAbs := by
  intro n hn
  cases h with
  | int hshort =>
    cases hn
    exact hshort
  | bool b =>
    cases hn
    cases b <;> exact short_of_lt (k := 1) (by decide) (by decide) (by decide)
  | float x => exact gives_integerFloat x n hn
  | text s =>
    rw [integer] at hn
    split at hn
    · next m hm =>
      cases hn
      obtain ⟨t, -, ht⟩ := Option.map_eq_some_iff.1 hm
      exact gives_integerText t _ ht
    · cases hn
    · cases hn
  | null => cases hn
  | calendar => cases hn
  | list hitems => cases hn
  | table hentries => cases hn

/-- **Counts.**  A number of things that is read from a bounded value can be read again. -/
theorem gives_count {v : Value Letters} (h : Bounded v) : Gives (count v) Short := by
  intro n hn
  unfold count integerFrom at hn
  split at hn
  · cases hn
  · next m hm =>
    split at hn
    · cases hn
    · next hbound =>
      cases hn
      have hshort := gives_integer h m hm
      rwa [show m.toNat = m.natAbs by omega]

/-! ### Records -/

section Records

variable {α : Type} {read : Table (Value Letters) Letters → Checked α} {P : α → Prop}

/-- What is read from a bounded table has what all readings of such tables have. -/
theorem gives_record
    (hread : ∀ t : Table (Value Letters) Letters, (∀ e ∈ t, Bounded e.2) → Gives (read t) P)
    (name : String) {v : Value Letters} (h : Bounded v) : Gives (record name read v) P := by
  intro a ha
  cases h with
  | table hentries => exact hread _ hentries a ha
  | _ => cases ha

/-- So has every item of a list of tables. -/
theorem gives_records
    (hread : ∀ t : Table (Value Letters) Letters, (∀ e ∈ t, Bounded e.2) → Gives (read t) P)
    (name : String) {v : Value Letters} (h : Bounded v) :
    Gives (list (record name read) v) fun as => ∀ a ∈ as, P a := by
  intro as has
  cases h with
  | list hitems =>
    exact Gives.eachFrom (fun v hv => gives_record hread name (hitems v hv)) 0 as has
  | _ => cases has

end Records

end LineCensus.Schema
