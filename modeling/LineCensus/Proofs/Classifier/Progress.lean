import LineCensus.Language.Builtin
import LineCensus.Proofs.Classifier.Rounds

namespace LineCensus.Classifier

open Text

/-!
# Every scan ends

The scan of a line is followed by the offsets at which its rounds start.  Every round that goes on
starts the next one further to the right, and none starts beyond the end of the line:

* `Ends` — the rounds from an offset on, up to the one that stops.
* `Ends.add_le_length` — there are no more of them than there are characters left.
* `exists_ends` — the scan comes to the last of them, whatever the tokens of the language are.
* `scan_ends` — so every scan ends, and on a line that is not blank it has met code or a comment.
-/

/-- From a state at an offset of the line, so many rounds go on and then one does not.  The last
    state is the one in which that round is made. -/
inductive Ends (l : Language) (line : List Char) : State → Nat → Nat → State → Prop where
  | here {s : State} {pos : Nat} (h : ∀ n state, ¬ Advances l s (line.drop pos) n state) :
      Ends l line s pos 0 s
  | later {s state last : State} {pos n k : Nat} (h : Advances l s (line.drop pos) n state)
      (hlater : Ends l line state (pos + n) k last) : Ends l line s pos (k + 1) last

section Offsets

variable {l : Language} {line : List Char} {s state last : State} {pos n k : Nat}

/-- A round that goes on ends within the line. -/
theorem Advances.add_le_length (h : Advances l s (line.drop pos) n state) :
    pos + n ≤ line.length := by
  have hpos := h.pos
  have hle := h.le_length
  rw [List.length_drop] at hle
  omega

/-- Each round that goes on takes up at least one character. -/
theorem Ends.add_le_length (h : Ends l line s pos k last) (hpos : pos ≤ line.length) :
    pos + k ≤ line.length := by
  induction h with
  | here h => exact hpos
  | later h hlater ih =>
    have hforward := h.pos
    have hrest := ih h.add_le_length
    omega

/-- From any offset on there is a last round, and its state is the one in which the scan ends. -/
theorem exists_ends (l : Language) (line : List Char) (s : State) (pos : Nat) :
    ∃ k, Ends l line s pos k (scan l s (line.drop pos)).2 := by
  generalize htext : line.drop pos = text
  -- The induction is on the rounds of the scan; only the offset tells where on the line it is.
  fun_induction scan l s text generalizing pos with
  | case1 s =>
    -- Nothing is left, and a round that goes on takes at least one character.
    refine ⟨0, .here fun n state h => ?_⟩
    have hpos := h.pos
    have hle := h.le_length
    rw [htext, List.length_nil] at hle
    omega
  | case2 s text ht seen hround =>
    refine ⟨0, .here fun n state h => ?_⟩
    rw [htext] at h
    obtain ⟨seen', hnext⟩ := h.exists_next
    rw [hround] at hnext
    cases hnext
  | case3 s text ht seen state rest hround _ later ih =>
    obtain ⟨n, hadvances, rfl⟩ := exists_advances hround
    obtain ⟨k, hends⟩ := ih (pos + n) (by rw [← htext, List.drop_drop])
    rw [← htext] at hadvances
    exact ⟨k + 1, .later hadvances hends⟩

end Offsets

/-- A line that is not blank, and not a directive outside comments, is of the kind that the scan
    makes of it. -/
theorem classify_eq_kind {l : Language} {s : State} {line : List Char}
    (hblank : allBlank line = false) (hdirective : s.depth = 0 → isDirective l line = false)
    (exclude : Bool) : (classify l exclude s line).1 = (scan l s line).1.kind := by
  have htest : (decide (s.depth = 0) && isDirective l line) = false := by
    by_cases hdepth : s.depth = 0
    · rw [hdirective hdepth, Bool.and_false]
    · rw [decide_eq_false hdepth, Bool.false_and]
  simp only [classify, hblank, htest, Bool.false_eq_true, if_false]

/-- **Every scan ends.**  In any state and at any offset of a line, a round goes on exactly if it
    comes to the end of a token; that is at least one character further on, and not beyond the end
    of the line.  So after no more rounds than the line has characters one is made that does not go
    on, and its state is that behind the line.  If the line is not blank, the scan has met code or a
    comment, and this alone tells what the line is, if it is no directive outside comments. -/
theorem scan_ends (l : Language) (s : State) (line : List Char) :
    (∀ (here there : State) (pos : Nat) (rest : List Char),
      (∃ seen, round l here (line.drop pos) = .next seen there rest) ↔
        ∃ n, Advances l here (line.drop pos) n there ∧ rest = line.drop (pos + n)) ∧
    (∀ (here there : State) (pos n : Nat), Advances l here (line.drop pos) n there →
      0 < n ∧ pos + n ≤ line.length) ∧
    (∃ k ≤ line.length, Ends l line s 0 k (scan l s line).2) ∧
    (allBlank line = false →
      ((scan l s line).1.code = true ∨ (scan l s line).1.comment = true) ∧
      ∀ exclude, (s.depth = 0 → isDirective l line = false) →
        (classify l exclude s line).1 = if (scan l s line).1.code then .logical else .comment) := by
  refine ⟨fun here there pos rest => ?_, fun here there pos n h => ⟨h.pos, h.add_le_length⟩, ?_,
    fun hblank => ?_⟩
  · simp only [round_next_iff, List.drop_drop]
  · obtain ⟨k, hends⟩ := exists_ends l line s 0
    have hle := hends.add_le_length (Nat.zero_le _)
    rw [Nat.zero_add] at hle
    exact ⟨k, hle, hends⟩
  · have hmeets := scan_meets l s hblank
    refine ⟨hmeets, fun exclude hdirective => ?_⟩
    rw [classify_eq_kind hblank hdirective, hmeets.kind_eq]

/-- `scan_ends` for a line that closes both open blocks, has code and opens another. -/
theorem scan_ends_nested :
    let rust : Language := { slashLanguage "Rust" ["rust"] ["rs"] with nested := true }
    let line := "*/ a */ b /* c".toList
    let inner : State := ⟨2, some slashStar⟩
    let behind : State := ⟨1, some slashStar⟩
    (Advances rust inner (line.drop 0) 2 behind ∧ allBlank line = false ∧
        (inner.depth = 0 → isDirective rust line = false)) ∧
      (0 < 2 ∧ 0 + 2 ≤ line.length) ∧ (∃ k ≤ line.length, Ends rust line inner 0 k behind) ∧
      (classify rust true inner line).1 = .logical := by
  intro rust line inner behind
  obtain ⟨_, hforward, hends, hmeets⟩ := scan_ends rust inner line
  have hscan : scan rust inner line = (⟨true, true⟩, behind) := by decide +kernel
  have hdepth : inner.depth ≠ 0 := by decide
  have hclosing : indexOf? slashStar.closing.toList (line.drop 0) = some 0 := by decide
  have hadvances : Advances rust inner (line.drop 0) 2 behind :=
    .leaves hdepth rfl hclosing fun i _ => Nat.zero_le i
  have hblank : allBlank line = false := by decide
  have hdirective : inner.depth = 0 → isDirective rust line = false := by decide
  rw [hscan] at hends hmeets
  exact ⟨⟨hadvances, hblank, hdirective⟩, hforward _ _ 0 2 hadvances, hends,
    (hmeets hblank).2 true hdirective⟩

end LineCensus.Classifier
