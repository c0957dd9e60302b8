import LineCensus.Proofs.Classifier.States
import LineCensus.Report.Document

namespace LineCensus.Classifier

open Text

/-!
# Counting without directives

Directives outside block comments can be left out of the counts.  The scan goes over them all the
same, so nothing else about a file changes:

* `IsDirectiveLine`, `directiveCount` — the lines that are left out, and their number.
* `classify_kind` — the kind of a line, with directives and without.
* `tallyOf_exclude` — the counts differ by the directives, which are code if they count.
* `tallyFile_exclude` — states, counts and checks of a file either way.
-/

/-! ### The lines that are left out -/

/-- A directive outside comments: the line is not blank, no block is open where it starts, and
    without the blanks at its ends it begins with the directive mark of the language. -/
def IsDirectiveLine (l : Language) (s : State) (line : List Char) : Prop :=
  allBlank line = false ∧ s = .outside ∧
    ∃ mark, l.directiveMark = some mark ∧ mark.toList <+: trim line

theorem isDirective_iff {l : Language} {line : List Char} :
    isDirective l line = true ↔
      ∃ mark, l.directiveMark = some mark ∧ mark.toList <+: trim line := by
  rw [isDirective]
  cases l.directiveMark with
  | none => simp
  | some mark => simp [startsWith_iff]

instance (l : Language) (s : State) (line : List Char) : Decidable (IsDirectiveLine l s line) :=
  decidable_of_iff (allBlank line = false ∧ s = .outside ∧ isDirective l line = true)
    (and_congr_right' (and_congr_right' isDirective_iff))

/-- The number of directives outside comments in a file. -/
def directiveCount (l : Language) (lines : List String) : Nat :=
  (met l .outside (lines.map String.toList)).countP fun p => IsDirectiveLine l p.1 p.2

/-! ### One line -/

section Lines

variable {l : Language} {s : State}

/-- The kind of a line that is met in a sound state. -/
theorem classify_kind (hs : s.Sound l) (exclude : Bool) (line : List Char) :
    (classify l exclude s line).1 =
      if allBlank line then (if s.inBlock then .comment else .empty)
      else if IsDirectiveLine l s line then (if exclude then .excluded else .logical)
      else (scan l s line).1.kind := by
  rw [classify]
  cases hblank : allBlank line with
  | true => rfl
  | false =>
    -- A sound state of depth 0 is that outside comments, so the two tests for directives agree.
    have hdirective : (decide (s.depth = 0) && isDirective l line) = true ↔
        IsDirectiveLine l s line := by
      rw [Bool.and_eq_true, decide_eq_true_iff, hs.depth_eq_zero_iff_outside, isDirective_iff,
        IsDirectiveLine]
      exact ⟨fun h => ⟨hblank, h⟩, fun h => h.2⟩
    simp only [Bool.false_eq_true, if_false, hdirective]
    split <;> rfl

/-- No line is left out for what a scan sees on it. -/
theorem Seen.kind_ne_excluded (seen : Seen) : seen.kind ≠ .excluded := by
  obtain ⟨code, comment⟩ := seen
  cases code <;> cases comment <;> decide

/-- With `exclude` a directive is left out, and otherwise it is code. -/
theorem classify_of_directive (hs : s.Sound l) {line : List Char} (h : IsDirectiveLine l s line)
    (exclude : Bool) :
    (classify l exclude s line).1 = if exclude then .excluded else .logical := by
  rw [classify_kind hs, h.1, if_pos h]
  rfl

/-- Any other line counts, and is of the same kind either way. -/
theorem classify_of_not_directive (hs : s.Sound l) {line : List Char}
    (h : ¬ IsDirectiveLine l s line) (exclude : Bool) :
    (classify l exclude s line).1 = (classify l false s line).1 ∧
      (classify l false s line).1 ≠ .excluded := by
  rw [classify_kind hs, classify_kind hs, if_neg h, if_neg h]
  refine ⟨rfl, ?_⟩
  split
  · split <;> decide
  · exact (scan l s line).1.kind_ne_excluded

end Lines

/-! ### Counts -/

/-- One more line adds its own count. -/
theorem tallyOf_cons (k : LineKind) (kinds : List LineKind) :
    tallyOf (k :: kinds) = (tallyOf [k]).add (tallyOf kinds) := by
  cases k <;> simp [tallyOf, Tally.add, Tally.zipWith] <;> omega

/-- What is in no count has been left out. -/
theorem total_add_excluded (kinds : List LineKind) :
    (tallyOf kinds).total + kinds.count .excluded = kinds.length := by
  induction kinds with
  | nil => rfl
  | cons k kinds ih =>
    simp only [tallyOf] at ih
    cases k <;> simp [tallyOf] <;> omega

/-- The counts differ by the directives: where these count they are code. -/
theorem tallyOf_exclude {l : Language} {ps : List (State × List Char)}
    (hs : ∀ p ∈ ps, p.1.Sound l) :
    let n := ps.countP fun p => IsDirectiveLine l p.1 p.2
    tallyOf (ps.map fun p => (classify l false p.1 p.2).1) =
      (tallyOf (ps.map fun p => (classify l true p.1 p.2).1)).add ⟨n, n, 0, 0⟩ := by
  induction ps with
  | nil => rfl
  | cons p ps ih =>
    have hp := hs p List.mem_cons_self
    have hrest := ih fun q hq => hs q (List.mem_cons_of_mem p hq)
    simp only at hrest
    simp only [List.map_cons, List.countP_cons]
    rw [tallyOf_cons, hrest, tallyOf_cons (classify l true p.1 p.2).1]
    -- The first line adds the same on both sides, unless it is a directive and counts on one only.
    by_cases h : IsDirectiveLine l p.1 p.2
    · rw [classify_of_directive hp h, classify_of_directive hp h]
      simp [h, tallyOf, Tally.add, Tally.zipWith]
      omega
    · rw [(classify_of_not_directive hp h true).1]
      simp [h, Tally.add, Tally.zipWith]
      omega

/-- The kinds of the lines of a file, one by one. -/
theorem kinds_traceFile (l : Language) (exclude : Bool) (lines : List String) :
    (traceFile l exclude lines).map (·.1) =
      (met l .outside (lines.map String.toList)).map fun p => (classify l exclude p.1 p.2).1 := by
  rw [traceFile, trace_eq_map_met, List.map_map]
  rfl

/-- If directives count, every line is in one of the counts. -/
theorem total_tallyFile_of_all (path : String) (l : Language) (lines : List String) :
    (tallyFile path l false lines).tally.total = lines.length := by
  have hsound := (State.Sound.outside l).met (lines.map String.toList)
  have hnone : .excluded ∉ (traceFile l false lines).map (·.1) := by
    rw [kinds_traceFile]
    intro hmem
    obtain ⟨p, hp, hkind⟩ := List.mem_map.1 hmem
    by_cases h : IsDirectiveLine l p.1 p.2
    · rw [classify_of_directive (hsound p hp) h] at hkind
      cases hkind
    · exact (classify_of_not_directive (hsound p hp) h false).2 hkind
  have htotal := total_add_excluded ((traceFile l false lines).map (·.1))
  rw [List.count_eq_zero.2 hnone, Nat.add_zero] at htotal
  rw [tallyFile, htotal, kinds_traceFile, List.length_map, length_met, List.length_map]

/-- **Leaving directives out.**  Whether or not directives count, the state behind every line is the
    same.  If they do, every line is in one of the counts; if they do not, code and total are less
    by the directives outside comments, and the other counts are the same.  Either way the counts of
    the file pass the check that they add up. -/
theorem tallyFile_exclude (l : Language) (path : String) (lines : List String) :
    (traceFile l true lines).map (·.2) = (traceFile l false lines).map (·.2) ∧
      (let every := (tallyFile path l false lines).tally
       let kept := (tallyFile path l true lines).tally
       every.total = lines.length ∧ kept.comment = every.comment ∧ kept.empty = every.empty ∧
         kept.logical + directiveCount l lines = every.logical ∧
         kept.total + directiveCount l lines = every.total) ∧
      ∀ exclude, Report.balancedFile path l.name
          (tallyOf ((traceFile l exclude lines).map (·.1))) =
        .ok (tallyFile path l exclude lines) := by
  have htally : (tallyFile path l false lines).tally =
      (tallyFile path l true lines).tally.add
        ⟨directiveCount l lines, directiveCount l lines, 0, 0⟩ := by
    simp only [tallyFile, kinds_traceFile]
    exact tallyOf_exclude ((State.Sound.outside l).met _)
  refine ⟨?_, ⟨total_tallyFile_of_all path l lines, ?_, ?_, ?_, ?_⟩,
    fun exclude => dif_pos (tallyOf_balanced _)⟩
  · simp only [traceFile, trace_eq_map_met, List.map_map]
    apply List.map_congr_left
    intro p _
    simp only [Function.comp, classify_state]
  all_goals
    rw [htally]
    rfl

/-- The first directive opens a comment, which ends on the third line and takes in the second. -/
example :
    let c : Language :=
      { slashLanguage "C" ["c"] ["c"] with directiveMark := some "#", directive_ne := by decide }
    directiveCount c ["#define A /* b", "#if", "*/ #", "", " #endif"] = 2 := by
  decide +kernel

end LineCensus.Classifier
