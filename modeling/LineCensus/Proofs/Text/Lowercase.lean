import LineCensus.Text.Lowercase
import LineCensus.Proofs.Text.Blank
import LineCensus.Proofs.Text.Utf16

namespace LineCensus.Text

/-!
# Lowercase texts

* `apart`, `blankRanges` — closed ranges of code points, by which the tables of letter case are
  compared: small forms are neither capitals nor blanks, and blanks have no case.
* `IsLower`, `IsSmall` — a character that is in lowercase, and one that may come from another.
* `lowerAt_cases` — in lowercase a character is itself, or has small forms and is no blank.
* `lower_lower` — a text in lowercase stays as it is.
* `mem_of_mem_lower` — a text in lowercase has no new characters before the small letters.
* `tight_lower`, `lower_blanks_append` — blanks stay where they are, and none come.
-/

/-! ### The tables -/

/-- The closed ranges have nothing in common. -/
def apart (r s : Nat × Nat) : Bool := r.2.blt s.1 || s.2.blt r.1

/-- Numbers from ranges apart are not the same. -/
theorem ne_of_apart {r s : Nat × Nat} (h : apart r s = true) {m n : Nat} (hm : r.1 ≤ m ∧ m ≤ r.2)
    (hn : s.1 ≤ n ∧ n ≤ s.2) : m ≠ n := by
  simp only [apart, Bool.or_eq_true, Nat.blt_eq] at h
  omega

/-- The blanks, in ranges. -/
def blankRanges : List (Nat × Nat) :=
  [(9, 13), (28, 32), (0x85, 0x85), (0xA0, 0xA0), (0x1680, 0x1680), (0x2000, 0x200A),
   (0x2028, 0x2029), (0x202F, 0x202F), (0x205F, 0x205F), (0x3000, 0x3000)]

/-- Each blank is in one of the ranges. -/
theorem exists_blankRange {c : Char} (h : isBlank c = true) :
    ∃ b ∈ blankRanges, b.1 ≤ c.toNat ∧ c.toNat ≤ b.2 := by
  simp [isBlank, isWhiteSpace] at h
  simp [blankRanges]
  omega

/-- The characters that a run changes lie between these. -/
def CaseRun.source (run : CaseRun) : Nat × Nat := (run.first, run.last)

/-- The forms to which a run changes them lie between these. -/
def CaseRun.target (run : CaseRun) : Nat × Nat :=
  ((run.first + run.shift).toNat, (run.last + run.shift).toNat)

/-- No form of a run is changed by another: the ranges are apart, or the two alternate. -/
def CaseRun.avoids (run other : CaseRun) : Bool :=
  apart run.target other.source ||
    ((run.stride == 2 || run.first == run.last) && other.stride == 2 &&
      (run.target.1 + other.first) % 2 == 1)

/-- The small forms are characters behind the capital letters, and none of them is a blank. -/
theorem target_of_mem_lowercaseRuns : ∀ run ∈ lowercaseRuns, 97 ≤ run.target.1 ∧
    (run.target.2 < 0xD800 ∨ 0xE000 ≤ run.target.1 ∧ run.target.2 < 0x110000) ∧
      apart run.target (0x130, 0x130) ∧ ∀ b ∈ blankRanges, apart run.target b := by
  decide +kernel

/-- The small forms are in no run. -/
theorem avoids_of_mem_lowercaseRuns :
    (lowercaseRuns.all fun run => lowercaseRuns.all run.avoids) = true := by
  decide +kernel

/-- Blanks are in no run, and they are no letters. -/
theorem apart_of_mem_blankRanges : ∀ b ∈ blankRanges, apart b (0x130, 0x130) ∧
    (∀ run ∈ lowercaseRuns, apart b run.source) ∧ ∀ s ∈ casedRanges, apart b s := by
  decide +kernel

/-- The table has the capital letters, at their distance to the small ones, and the sigma. -/
theorem covered_letter :
    (∀ n ∈ List.range' 65 26,
      (lowercaseRuns.any fun run => run.covers n && run.shift == 32) = true) ∧
    (lowercaseRuns.any fun run => run.covers 0x3A3) = true := by
  decide +kernel

/-! ### Single characters -/

/-- A character in lowercase: it has no other form, and it is no sigma, whose form depends on where
    it stands. -/
structure IsLower (c : Char) : Prop where
  ne_sigma : c.toNat ≠ 0x3A3
  lowerChar_eq : lowerChar c = [c]

/-- A character in lowercase that may be the form of another one. -/
structure IsSmall (c : Char) : Prop extends IsLower c where
  le : 97 ≤ c.toNat
  not_blank : isBlank c = false

/-- Each capital is in a run that shifts it to its small letter. -/
theorem exists_run_of_capital {n : Nat} (h : 65 ≤ n ∧ n ≤ 90) :
    ∃ run ∈ lowercaseRuns, run.covers n = true ∧ run.shift = 32 := by
  have hmem : n ∈ List.range' 65 26 := by
    rw [List.mem_range'_1]
    omega
  simpa using covered_letter.1 n hmem

/-- A character that no run covers is in lowercase. -/
theorem isLower_of_not_covers {c : Char} (hdotted : c.toNat ≠ 0x130)
    (h : ∀ run ∈ lowercaseRuns, run.covers c.toNat = false) : IsLower c := by
  have hnone : lowercaseRuns.find? (·.covers c.toNat) = none := by
    rw [List.find?_eq_none]
    intro run hrun
    rw [h run hrun]
    exact Bool.false_ne_true
  constructor
  · intro hsigma
    obtain ⟨run, hrun, hcovers⟩ := List.any_eq_true.1 covered_letter.2
    rw [← hsigma, h run hrun] at hcovers
    exact Bool.false_ne_true hcovers
  · rw [lowerChar, hnone]
    simp only [beq_iff_eq, hdotted, if_false, Bool.and_eq_true, decide_eq_true_eq]
    split_ifs with hascii hcapital
    · obtain ⟨run, hrun, hcovers, -⟩ := exists_run_of_capital hcapital
      rw [h run hrun] at hcovers
      exact absurd hcovers Bool.false_ne_true
    · rfl
    · rfl

/-- A run covers nothing that is apart from the characters that it changes. -/
theorem covers_eq_false_of_apart {run : CaseRun} {r : Nat × Nat} (h : apart r run.source = true)
    {n : Nat} (hn : r.1 ≤ n ∧ n ≤ r.2) : run.covers n = false := by
  by_contra hcovers
  simp only [CaseRun.covers, Bool.not_eq_false, Bool.and_eq_true, decide_eq_true_eq] at hcovers
  exact ne_of_apart h hn hcovers.1 rfl

/-- Blanks are in lowercase. -/
theorem isLower_of_isBlank {c : Char} (h : isBlank c = true) : IsLower c := by
  obtain ⟨b, hb, hc⟩ := exists_blankRange h
  obtain ⟨hdotted, hruns, -⟩ := apart_of_mem_blankRanges b hb
  apply isLower_of_not_covers
  · exact ne_of_apart hdotted hc ⟨le_refl _, le_refl _⟩
  · intro run hrun
    exact covers_eq_false_of_apart (hruns run hrun) hc

/-- Blanks are no letters. -/
theorem not_cased_of_isBlank {c : Char} (h : isBlank c = true) :
    inRanges casedRanges c.toNat = false := by
  obtain ⟨b, hb, hc⟩ := exists_blankRange h
  obtain ⟨-, -, hcased⟩ := apart_of_mem_blankRanges b hb
  by_contra hin
  simp only [inRanges, Bool.not_eq_false, List.any_eq_true, Bool.and_eq_true,
    decide_eq_true_eq] at hin
  obtain ⟨s, hs, hmem⟩ := hin
  exact ne_of_apart (hcased s hs) hc hmem rfl

section Covers

variable {run : CaseRun} {n : Nat} (h : run.covers n = true)
include h

/-- The form lies between those of the first and of the last character of the run. -/
theorem target_bounds_of_covers :
    run.target.1 ≤ ((n : Int) + run.shift).toNat ∧
      ((n : Int) + run.shift).toNat ≤ run.target.2 := by
  simp only [CaseRun.covers, Bool.and_eq_true, decide_eq_true_eq] at h
  simp only [CaseRun.target]
  omega

/-- No run covers the form that another run makes. -/
theorem not_covers_form (hpos : 0 < run.target.1) {other : CaseRun}
    (havoids : run.avoids other = true) :
    other.covers ((n : Int) + run.shift).toNat = false := by
  have hbounds := target_bounds_of_covers h
  rw [CaseRun.avoids, Bool.or_eq_true] at havoids
  rcases havoids with hapart | halternate
  · exact covers_eq_false_of_apart hapart hbounds
  · -- The forms of the run and the characters of the other one alternate.
    by_contra hcovers
    simp only [CaseRun.covers, Bool.not_eq_false, Bool.and_eq_true, decide_eq_true_eq,
      beq_iff_eq] at h hcovers
    simp only [Bool.and_eq_true, Bool.or_eq_true, beq_iff_eq] at halternate
    obtain ⟨⟨hstride, hother⟩, hodd⟩ := halternate
    have htarget : run.target.1 = ((run.first : Int) + run.shift).toNat := rfl
    rw [hother] at hcovers
    rcases hstride with htwo | hone
    · rw [htwo] at h
      omega
    · omega

/-- **Small forms.**  What a run makes of a character is in lowercase, and it is no blank. -/
theorem isSmall_of_covers (hrun : run ∈ lowercaseRuns) :
    IsSmall (Char.ofNat ((n : Int) + run.shift).toNat) := by
  obtain ⟨hle, hvalid, hdotted, hblank⟩ := target_of_mem_lowercaseRuns run hrun
  have hbounds := target_bounds_of_covers h
  have hnotCovered : ∀ other ∈ lowercaseRuns,
      other.covers ((n : Int) + run.shift).toNat = false := by
    intro other hother
    have havoids := List.all_eq_true.1 avoids_of_mem_lowercaseRuns run hrun
    exact not_covers_form h (by omega) (List.all_eq_true.1 havoids other hother)
  generalize ((n : Int) + run.shift).toNat = m at hbounds hnotCovered
  have hnat : (Char.ofNat m).toNat = m := toNat_ofNat_of_valid (by omega)
  refine ⟨isLower_of_not_covers ?_ (hnat.symm ▸ hnotCovered), ?_, ?_⟩
  · rw [hnat]
    exact ne_of_apart hdotted hbounds ⟨le_refl _, le_refl _⟩
  · omega
  · by_contra hisBlank
    obtain ⟨b, hb, hc⟩ := exists_blankRange (Bool.not_eq_false _ ▸ hisBlank)
    rw [hnat] at hc
    exact ne_of_apart (hblank b hb) hbounds hc rfl

end Covers

/-- The forms of the dotted capital letter. -/
theorem isSmall_of_mem_dotted : ∀ d ∈ ['i', Char.ofNat 0x307], IsSmall d := by
  simp only [List.forall_mem_cons]
  refine ⟨⟨⟨by decide, by decide⟩, by decide, by decide⟩,
    ⟨⟨by decide, by decide +kernel⟩, by decide, by decide⟩, List.forall_mem_nil _⟩

/-- The two small sigmas. -/
theorem isSmall_sigma (final : Bool) : IsSmall (Char.ofNat (if final then 0x3C2 else 0x3C3)) := by
  cases final with
  | false => exact ⟨⟨by decide, by decide +kernel⟩, by decide, by decide⟩
  | true => exact ⟨⟨by decide, by decide +kernel⟩, by decide, by decide⟩

/-- A character is in lowercase, or it has small forms only. -/
theorem lowerChar_cases (c : Char) :
    IsLower c ∨ lowerChar c ≠ [] ∧ ∀ d ∈ lowerChar c, IsSmall d := by
  by_cases hdotted : c.toNat = 0x130
  · have hforms : lowerChar c = ['i', Char.ofNat 0x307] := by simp [lowerChar, hdotted]
    rw [hforms]
    exact .inr ⟨List.cons_ne_nil _ _, isSmall_of_mem_dotted⟩
  · cases hrun : lowercaseRuns.find? (·.covers c.toNat) with
    | none =>
      refine .inl (isLower_of_not_covers hdotted fun run hmem => ?_)
      simpa using List.find?_eq_none.1 hrun run hmem
    | some run =>
      have hcovers : run.covers c.toNat = true := by simpa using List.find?_some hrun
      have hsmall := isSmall_of_covers hcovers (List.mem_of_find?_eq_some hrun)
      by_cases hascii : c.toNat < 128
      · by_cases hcapital : 65 ≤ c.toNat ∧ c.toNat ≤ 90
        · -- Capital letters are not looked up, but the table says the same of them.
          obtain ⟨run, hmem, hcovers, hshift⟩ := exists_run_of_capital hcapital
          have hform : IsSmall (Char.ofNat (c.toNat + 32)) := by
            have hsmall := isSmall_of_covers hcovers hmem
            rw [hshift] at hsmall
            exact hsmall
          have hforms : lowerChar c = [Char.ofNat (c.toNat + 32)] := by
            simp [lowerChar, hascii, hcapital]
          rw [hforms, List.forall_mem_singleton]
          exact .inr ⟨List.cons_ne_nil _ _, hform⟩
        · refine .inl ⟨by omega, ?_⟩
          simp [lowerChar, hascii, hcapital]
      · have hforms : lowerChar c = [Char.ofNat ((c.toNat : Int) + run.shift).toNat] := by
          simp [lowerChar, hascii, hdotted, hrun]
        rw [hforms, List.forall_mem_singleton]
        exact .inr ⟨List.cons_ne_nil _ _, hsmall⟩

/-! ### Characters of a text -/

/-- What a text in lowercase has in the place of `c`, between the characters `before` it, nearest
    first, and those `after` it. -/
def lowerAt (before : List Char) (c : Char) (after : List Char) : List Char :=
  if c.toNat == 0x3A3 then
    [Char.ofNat (if meetsCased before && !meetsCased after then 0x3C2 else 0x3C3)]
  else lowerChar c

/-- A text is lowered character by character. -/
theorem lowerFrom_cons (before : List Char) (c : Char) (s : List Char) :
    lowerFrom before (c :: s) = lowerAt before c s ++ lowerFrom (c :: before) s := rfl

/-- **One character.**  In lowercase it is itself, or it has small forms and is no blank. -/
theorem lowerAt_cases (before : List Char) (c : Char) (after : List Char) :
    lowerAt before c after = [c] ∧ IsLower c ∨
      isBlank c = false ∧ lowerAt before c after ≠ [] ∧
        ∀ d ∈ lowerAt before c after, IsSmall d := by
  by_cases hlower : IsLower c
  · refine .inl ⟨?_, hlower⟩
    simp [lowerAt, hlower.ne_sigma, hlower.lowerChar_eq]
  · have hblank : isBlank c = false := by
      by_contra hisBlank
      exact hlower (isLower_of_isBlank (Bool.not_eq_false _ ▸ hisBlank))
    refine .inr ⟨hblank, ?_⟩
    by_cases hsigma : c.toNat = 0x3A3
    · simp only [lowerAt, hsigma, beq_self_eq_true, if_true, List.forall_mem_singleton]
      exact ⟨List.cons_ne_nil _ _, isSmall_sigma _⟩
    · simp only [lowerAt, beq_iff_eq, hsigma, if_false]
      exact (lowerChar_cases c).resolve_left hlower

/-- No character is lost. -/
theorem lowerAt_ne_nil (before : List Char) (c : Char) (after : List Char) :
    lowerAt before c after ≠ [] := by
  rcases lowerAt_cases before c after with ⟨heq, -⟩ | ⟨-, hne, -⟩
  · rw [heq]
    exact List.cons_ne_nil _ _
  · exact hne

/-- A character of a text in lowercase is in lowercase, and small if it was not there before. -/
theorem mem_lowerFrom {before s : List Char} {d : Char} (h : d ∈ lowerFrom before s) :
    d ∈ s ∧ IsLower d ∨ IsSmall d := by
  induction s generalizing before with
  | nil => exact absurd h List.not_mem_nil
  | cons c s ih =>
    rw [lowerFrom_cons, List.mem_append] at h
    rcases h with hhere | hrest
    · rcases lowerAt_cases before c s with ⟨heq, hlower⟩ | ⟨-, -, hsmall⟩
      · rw [heq, List.mem_singleton] at hhere
        exact .inl ⟨List.mem_cons.2 (.inl hhere), hhere ▸ hlower⟩
      · exact .inr (hsmall d hhere)
    · rcases ih hrest with ⟨hmem, hlower⟩ | hsmall
      · exact .inl ⟨List.mem_cons_of_mem c hmem, hlower⟩
      · exact .inr hsmall

/-- A text in lowercase has no characters before the small letters but those it had. -/
theorem mem_of_mem_lower {s : List Char} {d : Char} (hbefore : d.toNat < 97) (h : d ∈ lower s) :
    d ∈ s := by
  rcases mem_lowerFrom h with ⟨hmem, -⟩ | hsmall
  · exact hmem
  · exact absurd hsmall.le (by omega)

/-- Characters in lowercase stay. -/
theorem lowerFrom_of_isLower {s : List Char} (h : ∀ c ∈ s, IsLower c) (before : List Char) :
    lowerFrom before s = s := by
  induction s generalizing before with
  | nil => rfl
  | cons c s ih =>
    rw [List.forall_mem_cons] at h
    rw [lowerFrom_cons, ih h.2]
    simp [lowerAt, h.1.ne_sigma, h.1.lowerChar_eq]

/-- **Once is enough.**  A text in lowercase stays as it is. -/
theorem lower_lower (s : List Char) : lower (lower s) = lower s := by
  apply lowerFrom_of_isLower
  intro d hd
  rcases mem_lowerFrom hd with ⟨-, hlower⟩ | hsmall
  · exact hlower
  · exact hsmall.toIsLower

/-! ### Blanks -/

/-- No text is. -/
theorem lowerFrom_ne_nil (before : List Char) (c : Char) (s : List Char) :
    lowerFrom before (c :: s) ≠ [] := by
  rw [lowerFrom_cons]
  exact List.append_ne_nil_of_left_ne_nil (lowerAt_ne_nil before c s) _

/-- A character that is no blank has no blanks among its forms. -/
theorem not_blank_of_mem_lowerAt {before after : List Char} {c d : Char}
    (hc : isBlank c = false) (h : d ∈ lowerAt before c after) : isBlank d = false := by
  rcases lowerAt_cases before c after with ⟨heq, -⟩ | ⟨-, -, hsmall⟩
  · rw [heq, List.mem_singleton] at h
    exact h ▸ hc
  · exact (hsmall d h).not_blank

/-- **No blanks at the ends.**  A text without them has none in lowercase. -/
theorem tight_lowerFrom {s : List Char} (h : Tight isBlank s) (before : List Char) :
    Tight isBlank (lowerFrom before s) := by
  constructor
  · cases s with
    | nil => exact h.head
    | cons c s =>
      intro d hd
      obtain ⟨e, forms, hforms⟩ := List.exists_cons_of_ne_nil (lowerAt_ne_nil before c s)
      rw [lowerFrom_cons, hforms] at hd
      obtain rfl : e = d := by simpa using hd
      exact not_blank_of_mem_lowerAt (h.head c rfl) (hforms ▸ List.mem_cons_self)
  · have hlast := h.last
    clear h
    induction s generalizing before with
    | nil => exact hlast
    | cons c s ih =>
      intro d hd
      rw [lowerFrom_cons] at hd
      cases s with
      | nil =>
        rw [show lowerFrom (c :: before) [] = [] from rfl, List.append_nil] at hd
        exact not_blank_of_mem_lowerAt (hlast c rfl) (List.mem_of_getLast? hd)
      | cons c' s =>
        -- The last character comes from what is behind the first.
        obtain ⟨e, rest, hrest⟩ := List.exists_cons_of_ne_nil (lowerFrom_ne_nil (c :: before) c' s)
        rw [hrest, List.getLast?_append, List.getLast?_cons, Option.some_or, ← List.getLast?_cons,
          ← hrest] at hd
        exact ih (c :: before) (fun e he => hlast e (by simpa using he)) d hd

/-- A text without blanks at its ends has none when it is lowered. -/
theorem tight_lower {s : List Char} (h : Tight isBlank s) : Tight isBlank (lower s) :=
  tight_lowerFrom h []

/-- Blanks in front of what precedes a sigma make no difference to it. -/
theorem meetsCased_append_blanks {blanks : List Char} (h : ∀ c ∈ blanks, isBlank c = true)
    (s : List Char) : meetsCased (s ++ blanks) = meetsCased s := by
  rw [meetsCased, meetsCased, List.dropWhile_append]
  cases hs : s.dropWhile isCaseIgnorable with
  | cons c rest => rfl
  | nil =>
    rw [List.isEmpty_nil, if_pos rfl]
    cases hblanks : blanks.dropWhile isCaseIgnorable with
    | nil => rfl
    | cons c rest =>
      have hmem : c ∈ blanks := (List.dropWhile_sublist _).mem (hblanks ▸ List.mem_cons_self)
      exact not_cased_of_isBlank (h c hmem)

/-- Blanks in front of a text do not show in it. -/
theorem lowerFrom_append_blanks {blanks : List Char} (h : ∀ c ∈ blanks, isBlank c = true)
    (before s : List Char) : lowerFrom (before ++ blanks) s = lowerFrom before s := by
  induction s generalizing before with
  | nil => rfl
  | cons c s ih =>
    rw [lowerFrom_cons, lowerFrom_cons, ← List.cons_append, ih, lowerAt, lowerAt,
      meetsCased_append_blanks h]

/-- **Blanks in front.**  They stay, and the text behind them is put in lowercase as if they were not
    there. -/
theorem lower_blanks_append {blanks : List Char} (h : ∀ c ∈ blanks, isBlank c = true)
    (s : List Char) : lower (blanks ++ s) = blanks ++ lower s := by
  suffices hfrom : ∀ before, (∀ c ∈ before, isBlank c = true) →
      lowerFrom before (blanks ++ s) = blanks ++ lower s from
    hfrom [] (List.forall_mem_nil _)
  induction blanks with
  | nil =>
    intro before hbefore
    exact lowerFrom_append_blanks hbefore [] s
  | cons c blanks ih =>
    intro before hbefore
    rw [List.forall_mem_cons] at h
    have hlower := isLower_of_isBlank h.1
    have hhere : lowerAt before c (blanks ++ s) = [c] := by
      simp [lowerAt, hlower.ne_sigma, hlower.lowerChar_eq]
    rw [List.cons_append, lowerFrom_cons, hhere,
      ih h.2 (c :: before) (List.forall_mem_cons.2 ⟨h.1, hbefore⟩)]
    rfl

end LineCensus.Text
