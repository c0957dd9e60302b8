import LineCensus.Moment.Reading
import LineCensus.Proofs.Text.Digit

namespace LineCensus.Moment

open Text

/-!
# Moments read back

* `padded_succ`, `padded_two`, `padded_four` — numbers in a fixed number of digits.
* `dateParts?_written`, `timeParts?_written`, `offsetPart?_written` — the parts of a moment.
* `ofText_stored` — a moment that is local or whose offset is a number of minutes is read back from
  its text in a report.
-/

/-! ### Numbers in a fixed number of digits -/

/-- The last digit stands alone behind the others. -/
theorem padded_succ {width : Nat} (hw : 0 < width) (n : Nat) :
    padded (width + 1) n = padded width (n / 10) ++ [(n % 10).digitChar] := by
  by_cases hn : n < 10
  · obtain ⟨w, rfl⟩ := Nat.exists_eq_add_one.2 hw
    rw [padded, padded, padLeft, padLeft, Nat.div_eq_of_lt hn, Nat.mod_eq_of_lt hn,
      showNat_of_lt hn, show showNat 0 = ['0'] from rfl, List.length_singleton,
      List.length_singleton, Nat.add_sub_cancel, Nat.add_sub_cancel, List.replicate_succ']
  · -- A longer number has as many zeros in front of it as its tenth.
    rw [padded, padded, padLeft, padLeft, showNat_of_ge (Nat.le_of_not_lt hn), List.length_append,
      List.length_singleton, Nat.add_sub_add_right, List.append_assoc]

/-- A number of two places is its tens and its units. -/
theorem padded_two {n : Nat} (h : n < 100) :
    padded 2 n = [(n / 10).digitChar, (n % 10).digitChar] := by
  have hone : padded 1 (n / 10) = [(n / 10).digitChar] := by
    rw [padded, showNat_of_lt (by omega)]
    rfl
  rw [padded_succ (by decide), hone]
  rfl

/-- Four digits are two pairs of digits. -/
theorem padded_four (n : Nat) : padded 4 n = padded 2 (n / 100) ++ padded 2 (n % 100) := by
  have hfront : n / 10 / 10 = n / 100 := Nat.div_div_eq_div_mul n 10 10
  have htens : n / 10 % 10 = n % 100 / 10 := by omega
  have hones : n % 10 = n % 100 % 10 := by omega
  rw [padded_succ (by decide), padded_succ (by decide), padded_two (Nat.mod_lt n (by decide)),
    hfront, htens, hones, List.append_assoc]
  rfl

/-- A number that fits its places fills them. -/
theorem length_padded {width n : Nat} (hw : 0 < width) (h : n < Nat.pow 10 width) :
    (padded width n).length = width := by
  induction width generalizing n with
  | zero => exact absurd hw (lt_irrefl 0)
  | succ w ih =>
    rcases Nat.eq_zero_or_pos w with rfl | hpos
    · rw [padded, showNat_of_lt h]
      rfl
    · have hlt : n / 10 < Nat.pow 10 w := by
        have hsucc : Nat.pow 10 (w + 1) = Nat.pow 10 w * 10 := rfl
        omega
      rw [padded_succ hpos, List.length_append, ih hpos hlt, List.length_singleton]

/-- All of them are digits. -/
theorem isDigit_of_mem_padded {width n : Nat} {c : Char} (h : c ∈ padded width n) :
    isDigit c = true := by
  rcases List.mem_append.1 h with h | h
  · rw [(List.mem_replicate.1 h).2]
    rfl
  · exact isDigit_of_mem_showNat h

/-- Zeros in front do not count. -/
theorem readDigits_padded (width n : Nat) : readDigits (padded width n) = n := by
  rw [readDigits, padded, padLeft, Nat.ofDigitChars_append, Nat.ofDigitChars_replicate_zero,
    Nat.mul_zero]
  exact readDigits_showNat n

/-! ### Parts of a moment -/

/-- Two places are read back. -/
theorem two?_padded {n : Nat} (h : n < 100) (s : List Char) :
    two? (padded 2 n ++ s) = some (n, s) := by
  have htens : n / 10 < 10 := by omega
  have hsum : 10 * (n / 10) + n % 10 = n := Nat.div_add_mod n 10
  rw [padded_two h]
  simp only [List.cons_append, List.nil_append, two?, digitValue?_digitChar htens,
    digitValue?_digitChar (Nat.mod_lt n (show 10 > 0 by decide)), Option.bind_eq_bind,
    Option.bind_some, Option.pure_def, hsum]

/-- A mark is passed over where it stands. -/
theorem skip?_cons (c : Char) (s : List Char) : skip? c (c :: s) = some s := if_pos rfl

/-- A date is read back. -/
theorem dateParts?_written {year month day : Nat} (hy : year < 10000) (hm : month < 100)
    (hd : day < 100) (s : List Char) :
    dateParts? (padded 4 year ++ ('-' :: (padded 2 month ++ ('-' :: (padded 2 day ++ s))))) =
      some ((year, month, day), s) := by
  have hcentury : year / 100 < 100 := by omega
  have hrest : year % 100 < 100 := Nat.mod_lt year (by decide)
  have hyear : 100 * (year / 100) + year % 100 = year := Nat.div_add_mod year 100
  rw [padded_four, List.append_assoc]
  simp only [dateParts?, two?_padded hcentury, two?_padded hrest, two?_padded hm, two?_padded hd,
    skip?_cons, Option.bind_eq_bind, Option.bind_some, Option.pure_def, hyear]

/-- The text goes on neither with a digit nor with a fraction. -/
def EndsClock (s : List Char) : Prop := ∀ c ∈ s.head?, isDigit c = false ∧ c ≠ '.' ∧ c ≠ ','

/-- The millionths behind a clock, or nothing. -/
def fraction (micro : Nat) : List Char := if micro = 0 then [] else '.' :: padded 6 micro

/-- The places behind the point are read back. -/
theorem millionths_padded {micro : Nat} (h : micro < 1000000) :
    millionths (padded 6 micro) = micro := by
  have hlength : (padded 6 micro).length = 6 := length_padded (by decide) h
  rw [millionths, List.take_append_of_le_length (le_of_eq hlength.symm),
    List.take_of_length_le (le_of_eq hlength), readDigits_padded]

/-- A time of day is read back. -/
theorem timeParts?_written {hour minute second micro : Nat} (hh : hour < 24) (hm : minute < 60)
    (hs : second < 60) (hf : micro < 1000000) {s : List Char} (h : EndsClock s) :
    timeParts? (padded 2 hour ++ (':' :: (padded 2 minute ++ (':' :: (padded 2 second ++
      (fraction micro ++ s)))))) = some ((hour, minute, second, micro), s) := by
  have hhour : hour < 100 := by omega
  have hminute : minute < 100 := by omega
  have hsecond : second < 100 := by omega
  simp only [timeParts?, two?_padded hhour, two?_padded hminute, two?_padded hsecond, skip?_cons,
    Option.bind_eq_bind, Option.bind_some, Option.pure_def]
  by_cases hzero : micro = 0
  · -- Without a fraction the clock ends at the offset or with the text.
    rw [fraction, if_pos hzero, List.nil_append, hzero]
    cases s with
    | nil => rfl
    | cons c s =>
      obtain ⟨-, hpoint, hcomma⟩ := h c rfl
      simp only [hpoint, hcomma, decide_false, Bool.or_self, Bool.false_eq_true, if_false]
  · have hends : EndsDigits s := fun c hc => (h c hc).1
    have hdigits : ∀ c ∈ padded 6 micro, isDigit c = true := fun c hc => isDigit_of_mem_padded hc
    have hne : (padded 6 micro).isEmpty = false := by
      rw [List.isEmpty_eq_false_iff, ← List.length_pos_iff, length_padded (by decide) hf]
      decide
    rw [fraction, if_neg hzero, List.cons_append]
    simp only [decide_true, Bool.true_or, if_true, takeWhile_digits hdigits hends,
      dropWhile_digits hdigits hends, hne, Bool.false_eq_true, if_false, millionths_padded hf]

/-- The text of an offset in a report. -/
def storedOffset : Option Int → List Char
  | none => []
  | some o => if o = 0 then ['Z'] else offsetText o

/-- No offset goes on with digits or with a point. -/
theorem endsClock_storedOffset (offset : Option Int) : EndsClock (storedOffset offset) := by
  intro c hc
  cases offset with
  | none => cases hc
  | some o =>
    rw [storedOffset] at hc
    split at hc
    · cases hc
      decide
    · rw [offsetText] at hc
      split at hc
      · cases hc
        decide
      · cases hc
        decide

/-- Hours and minutes behind a sign are read with that sign. -/
theorem offsetPart?_signed {sign : Char} {unit : Int} (h : offsetSign? sign = some unit)
    {hours minutes : Nat} (hh : hours < 100) (hm : minutes < 60) :
    offsetPart? (sign :: padded 2 hours ++ ':' :: padded 2 minutes) =
      some (some (unit * ((hours * 3600 + minutes * 60 : Nat) : Int))) := by
  have hminutes : two? (padded 2 minutes) = some (minutes, []) := by
    have hread := two?_padded (show minutes < 100 by omega) []
    rwa [List.append_nil] at hread
  have hne : padded 2 hours ++ ':' :: padded 2 minutes ≠ [] :=
    List.append_ne_nil_of_right_ne_nil _ (List.cons_ne_nil _ _)
  rw [List.cons_append, offsetPart?]
  · simp only [h, two?_padded hh, skip?_cons, Option.getD_some, hminutes, hm, Option.bind_eq_bind,
      Option.bind_some, Option.pure_def, List.isEmpty_nil, decide_true, Bool.and_self, if_true]
  · intro _ hs
    exact hne hs
  · intro _ hs
    exact hne hs

/-- An offset of whole minutes is read back. -/
theorem offsetPart?_written {offset : Option Int} (hlt : ∀ o, offset = some o → o.natAbs < 86400)
    (hmin : ∀ o, offset = some o → o % 60 = 0) :
    offsetPart? (storedOffset offset) = some offset := by
  cases offset with
  | none => rfl
  | some o =>
    have ho := hlt o rfl
    have h60 := hmin o rfl
    have hhours : o.natAbs / 3600 < 100 := by omega
    have hminutes : o.natAbs / 60 % 60 < 60 := Nat.mod_lt _ (by decide)
    have hsum : o.natAbs / 3600 * 3600 + o.natAbs / 60 % 60 * 60 = o.natAbs := by omega
    rw [storedOffset]
    -- UTC is written as a letter, any other offset by its sign and its size.
    by_cases hzero : o = 0
    · rw [if_pos hzero, hzero]
      rfl
    · rw [if_neg hzero, offsetText]
      by_cases hneg : o < 0
      · have hvalue : -1 * ((o.natAbs : Nat) : Int) = o := by omega
        rw [if_pos hneg]
        exact (offsetPart?_signed rfl hhours hminutes).trans (by rw [hsum, hvalue])
      · have hvalue : 1 * ((o.natAbs : Nat) : Int) = o := by omega
        rw [if_neg hneg]
        exact (offsetPart?_signed rfl hhours hminutes).trans (by rw [hsum, hvalue])

/-! ### Whole moments -/

/-- Only the twelve months have days, and no more than 31 of them. -/
theorem month_of_daysInMonth_pos {year month : Nat} (h : 0 < daysInMonth year month) :
    1 ≤ month ∧ month ≤ 12 := by
  by_contra hmonth
  have hshort : ¬(month = 4 || month = 6 || month = 9 || month = 11) = true := by
    simp only [Bool.or_eq_true, decide_eq_true_eq]
    omega
  have hlong : ¬(decide (1 ≤ month) && decide (month ≤ 12)) = true := by
    simp only [Bool.and_eq_true, decide_eq_true_eq]
    exact hmonth
  rw [daysInMonth, if_neg (by omega), if_neg hshort, if_neg hlong] at h
  exact absurd h (lt_irrefl 0)

/-- No month has more than 31 days. -/
theorem daysInMonth_le (year month : Nat) : daysInMonth year month ≤ 31 := by
  unfold daysInMonth
  split_ifs <;> decide

/-- A moment is made of its parts again. -/
theorem mk?_self (m : Moment) :
    mk? m.year m.month m.day m.hour m.minute m.second m.micro m.offset = some m :=
  dif_pos m.inBounds

/-- A moment is stored part by part, with the marks between them. -/
theorem toList_stored (m : Moment) :
    m.stored.toList = padded 4 m.year ++ ('-' :: (padded 2 m.month ++ ('-' :: (padded 2 m.day ++
      ('T' :: (padded 2 m.hour ++ (':' :: (padded 2 m.minute ++ (':' :: (padded 2 m.second ++
        (fraction m.micro ++ storedOffset m.offset))))))))))) := by
  rw [stored, String.toList_ofList, wall]
  simp only [List.append_assoc, List.cons_append]
  rfl

/-- **Moments are read back.**  A moment that is local or whose offset is a number of minutes is the
    moment of its text in a report. -/
theorem ofText_stored (m : Moment) (hmin : ∀ o, m.offset = some o → o % 60 = 0) :
    ofText m.stored.toList = .ok m := by
  have hbounds := m.inBounds
  simp only [isMoment, Bool.and_eq_true, decide_eq_true_eq] at hbounds
  obtain ⟨⟨⟨⟨⟨⟨⟨⟨hy₁, hy⟩, hd₁⟩, hd⟩, hhour⟩, hminute⟩, hsecond⟩, hmicro⟩, hoffset⟩ := hbounds
  obtain ⟨hm₁, hm⟩ := month_of_daysInMonth_pos (Nat.lt_of_lt_of_le hd₁ hd)
  have hd31 := Nat.le_trans hd (daysInMonth_le m.year m.month)
  have hlt : ∀ o, m.offset = some o → o.natAbs < 86400 := by
    intro o ho
    rw [ho] at hoffset
    exact of_decide_eq_true hoffset
  -- None of the refusals of the reader applies to a moment within its bounds.
  have hday : ¬(decide (m.month < 1) || decide (12 < m.month) || decide (m.day < 1) ||
      decide (daysInMonth m.year m.month < m.day)) = true := by
    simp only [Bool.or_eq_true, decide_eq_true_eq]
    omega
  have hnear : ¬(m.offset.any fun o => decide (86400 ≤ o.natAbs)) = true := by
    rw [Option.any_eq_true]
    rintro ⟨o, ho, hle⟩
    have := hlt o ho
    have := of_decide_eq_true hle
    omega
  have hyear : m.year ≠ 0 := by omega
  have hdate := dateParts?_written (show m.year < 10000 by omega) (show m.month < 100 by omega)
    (show m.day < 100 by omega)
  have htime := timeParts?_written hhour hminute hsecond hmicro (endsClock_storedOffset m.offset)
  have hread : ofRfc3339? m.stored.toList = some (.ok m) := by
    rw [toList_stored, ofRfc3339?, hdate]
    simp only [Option.bind_eq_bind, Option.bind_some, hday, if_false, Bool.false_eq_true,
      decide_true, Bool.true_or, if_true, htime, hhour, hminute, hsecond, Bool.and_self,
      offsetPart?_written hlt hmin, hnear, hyear, mk?_self, Option.pure_def]
  rw [ofText, hread]

end LineCensus.Moment
