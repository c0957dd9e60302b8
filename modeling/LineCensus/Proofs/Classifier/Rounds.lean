import LineCensus.Classifier.Basic
import LineCensus.Proofs.Classifier.Opening

namespace LineCensus.Classifier

open Text

/-!
# Rounds of a scan

The scan of a line is a sequence of rounds.  What a single one can do is said here once:

* `Advances` — a round that goes on: the token it goes to, how far that is, and the state behind it.
* `exists_advances`, `Advances.exists_next`, `round_next_iff` — the rounds that go on are these.
* `Advances.pos`, `Advances.le_length` — such a round comes forward, and not beyond the text.
* `scan_of_stop`, `scan_of_next` — a scan, by its first round.
* `round_meets`, `scan_meets` — the scan of a text that is not blank meets code or a comment.
-/

/-- A round that goes on passes over so many characters, to the end of a token, and leads to a
    state.  Outside block comments the token is the next opening delimiter.  Inside it is the nearer
    one of the two delimiters; where both stand at one place it is the closing one. -/
inductive Advances (l : Language) (s : State) (text : List Char) : Nat → State → Prop where
  | opens {i : Nat} {pair : Delimiters} (hdepth : s.depth = 0)
      (hfound : nextOpening? (openings l) text = some (i, .block pair)) :
      Advances l s text (i + pair.opening.toList.length) ⟨1, some pair⟩
  | enters {i : Nat} {pair : Delimiters} (hdepth : s.depth ≠ 0) (hpair : s.pair = some pair)
      (hi : nestedOpening? l pair text = some i)
      (hnearer : ∀ j, indexOf? pair.closing.toList text = some j → i < j) :
      Advances l s text (i + pair.opening.toList.length) ⟨s.depth + 1, some pair⟩
  | leaves {j : Nat} {pair : Delimiters} (hdepth : s.depth ≠ 0) (hpair : s.pair = some pair)
      (hj : indexOf? pair.closing.toList text = some j)
      (hnearer : ∀ i, nestedOpening? l pair text = some i → j ≤ i) :
      Advances l s text (j + pair.closing.toList.length) (s.leave l pair)

section Rounds

variable {l : Language} {s state : State} {pair : Delimiters} {text rest : List Char} {n : Nat}

/-- An opening delimiter inside a comment is only found where comments nest. -/
theorem nestedOpening?_some {i : Nat} (h : nestedOpening? l pair text = some i) :
    l.nests pair = true ∧ indexOf? pair.opening.toList text = some i := by
  rw [nestedOpening?] at h
  split at h
  · next hn => exact ⟨hn, h⟩
  · cases h

/-- A round between delimiters goes to the nearer one, or stops where there is none. -/
theorem insideRound_cases (l : Language) (s : State) (pair : Delimiters) (text : List Char) :
    (∃ i, nestedOpening? l pair text = some i ∧
      (∀ j, indexOf? pair.closing.toList text = some j → i < j) ∧
      insideRound l s pair text = enterRound s pair text i) ∨
    (∃ j, indexOf? pair.closing.toList text = some j ∧
      (∀ i, nestedOpening? l pair text = some i → j ≤ i) ∧
      insideRound l s pair text = leaveRound l s pair text j) ∨
    (nestedOpening? l pair text = none ∧ indexOf? pair.closing.toList text = none ∧
      insideRound l s pair text = .stop ⟨false, true⟩) := by
  unfold insideRound
  -- Where both are found their offsets decide; one that is found alone is nearer than any other.
  split
  · next i j hi hj =>
    split
    · next hlt =>
      refine .inl ⟨i, hi, fun j' hj' => ?_, rfl⟩
      rw [hj, Option.some.injEq] at hj'
      omega
    · next hge =>
      refine .inr (.inl ⟨j, hj, fun i' hi' => ?_, rfl⟩)
      rw [hi, Option.some.injEq] at hi'
      omega
  · next i hi hj =>
    refine .inl ⟨i, hi, fun j' hj' => ?_, rfl⟩
    rw [hj] at hj'
    cases hj'
  · next j hi hj =>
    refine .inr (.inl ⟨j, hj, fun i' hi' => ?_, rfl⟩)
    rw [hi] at hi'
    cases hi'
  · next hi hj => exact .inr (.inr ⟨hi, hj, rfl⟩)

/-- Where the opening delimiter is nearer, the round goes to it. -/
theorem insideRound_enters {i : Nat} (hi : nestedOpening? l pair text = some i)
    (hnearer : ∀ j, indexOf? pair.closing.toList text = some j → i < j) :
    insideRound l s pair text = enterRound s pair text i := by
  rcases insideRound_cases l s pair text with
    ⟨i', hi', _, hround⟩ | ⟨j, hj, hfirst, _⟩ | ⟨hnone, _⟩
  · rw [hi, Option.some.injEq] at hi'
    rw [hround, hi']
  · have hij := hnearer j hj
    have hji := hfirst i hi
    omega
  · rw [hi] at hnone
    cases hnone

/-- Where the closing delimiter is nearer, the round goes to that one. -/
theorem insideRound_leaves {j : Nat} (hj : indexOf? pair.closing.toList text = some j)
    (hnearer : ∀ i, nestedOpening? l pair text = some i → j ≤ i) :
    insideRound l s pair text = leaveRound l s pair text j := by
  rcases insideRound_cases l s pair text with
    ⟨i, hi, hfirst, _⟩ | ⟨j', hj', _, hround⟩ | ⟨_, hnone, _⟩
  · have hij := hfirst j hj
    have hji := hnearer i hi
    omega
  · rw [hj, Option.some.injEq] at hj'
    rw [hround, hj']
  · rw [hj] at hnone
    cases hnone

/-- A round that goes on comes to the end of a token. -/
theorem exists_advances {seen : Seen} (h : round l s text = .next seen state rest) :
    ∃ n, Advances l s text n state ∧ rest = text.drop n := by
  unfold round at h
  -- The branches that stop are closed at once; the others have what `Advances` asks for.
  split at h
  · next hdepth =>
    unfold outsideRound at h
    split at h
    · cases h
    · cases h
    · next i pair hfound =>
      cases h
      exact ⟨_, .opens hdepth hfound, rfl⟩
  · next hdepth =>
    split at h
    · cases h
    · next pair hpair =>
      rcases insideRound_cases l s pair text with
        ⟨i, hi, hnearer, hround⟩ | ⟨j, hj, hnearer, hround⟩ | ⟨_, _, hround⟩
      · rw [hround, enterRound] at h
        cases h
        exact ⟨_, .enters hdepth hpair hi hnearer, rfl⟩
      · rw [hround, leaveRound] at h
        cases h
        exact ⟨_, .leaves hdepth hpair hj hnearer, rfl⟩
      · rw [hround] at h
        cases h

/-- Where there is a token to come to, the round goes on. -/
theorem Advances.exists_next (h : Advances l s text n state) :
    ∃ seen, round l s text = .next seen state (text.drop n) := by
  cases h with
  | @opens i pair hdepth hfound =>
    refine ⟨⟨!allBlank (text.take i), true⟩, ?_⟩
    rw [round, if_pos hdepth, outsideRound, hfound]
  | enters hdepth hpair hi hnearer =>
    refine ⟨⟨false, true⟩, ?_⟩
    simp only [round, if_neg hdepth, hpair]
    exact insideRound_enters hi hnearer
  | leaves hdepth hpair hj hnearer =>
    refine ⟨⟨false, true⟩, ?_⟩
    simp only [round, if_neg hdepth, hpair]
    exact insideRound_leaves hj hnearer

/-- **One round.**  The rounds that go on are those that come to the end of a token. -/
theorem round_next_iff : (∃ seen, round l s text = .next seen state rest) ↔
    ∃ n, Advances l s text n state ∧ rest = text.drop n := by
  constructor
  · rintro ⟨seen, h⟩
    exact exists_advances h
  · rintro ⟨n, h, rfl⟩
    exact h.exists_next

/-! ### Progress -/

/-- No token is empty, so a round that goes on comes forward. -/
theorem Advances.pos (h : Advances l s text n state) : 0 < n := by
  cases h with
  | opens hdepth hfound => exact Nat.add_pos_right _ (length_toList_pos (Delimiters.opening_ne _))
  | enters hdepth hpair hi hnearer =>
    exact Nat.add_pos_right _ (length_toList_pos (Delimiters.opening_ne _))
  | leaves hdepth hpair hj hnearer =>
    exact Nat.add_pos_right _ (length_toList_pos (Delimiters.closing_ne _))

/-- A token that is found is part of the text, so no round comes beyond it. -/
theorem Advances.le_length (h : Advances l s text n state) : n ≤ text.length := by
  cases h with
  | opens hdepth hfound => exact indexOf?_add_length_le (nextOpening?_found hfound).2
  | enters hdepth hpair hi hnearer => exact indexOf?_add_length_le (nestedOpening?_some hi).2
  | leaves hdepth hpair hj hnearer => exact indexOf?_add_length_le hj

end Rounds

/-! ### A scan by its first round -/

section Scans

variable {l : Language} {s state : State} {text rest : List Char} {seen : Seen}

/-- A round that stops ends the scan. -/
theorem scan_of_stop (ht : text ≠ []) (h : round l s text = .stop seen) :
    scan l s text = (seen, s) := by
  rw [scan, dif_neg ht]
  split
  · next seen' h' =>
    rw [h] at h'
    cases h'
    rfl
  · next h' =>
    rw [h] at h'
    cases h'

/-- A round that goes on is followed by the scan of the rest. -/
theorem scan_of_next (ht : text ≠ []) (h : round l s text = .next seen state rest) :
    scan l s text = (seen.or (scan l state rest).1, (scan l state rest).2) := by
  rw [scan, dif_neg ht]
  split
  · next h' =>
    rw [h] at h'
    cases h'
  · next h' =>
    rw [h] at h'
    cases h'
    rfl

/-- What a round has met, whether it stops or goes on. -/
def Round.met : Round → Seen
  | .stop seen => seen
  | .next seen _ _ => seen

/-- Code or a comment has been met. -/
def Seen.Any (seen : Seen) : Prop := seen.code = true ∨ seen.comment = true

theorem Seen.Any.or {a : Seen} (h : a.Any) (b : Seen) : (a.or b).Any := by
  rcases h with hcode | hcomment
  · exact .inl (by simp [Seen.or, hcode])
  · exact .inr (by simp [Seen.or, hcomment])

/-- On a text that is not blank every round meets something: outside comments a token, or else all
    of the text; inside it is comment that it meets. -/
theorem round_meets (l : Language) (s : State) (h : allBlank text = false) :
    (round l s text).met.Any := by
  unfold round
  split
  · unfold outsideRound
    split
    · exact .inl (by simp [Round.met, h])
    · exact .inr rfl
    · exact .inr rfl
  · split
    · exact .inr rfl
    · next pair _ =>
      rcases insideRound_cases l s pair text with ⟨i, _, _, hround⟩ | ⟨j, _, _, hround⟩ |
        ⟨_, _, hround⟩
      all_goals
        rw [hround]
        exact .inr rfl

/-- So does the scan, for its first round does. -/
theorem scan_meets (l : Language) (s : State) (h : allBlank text = false) :
    (scan l s text).1.Any := by
  have ht : text ≠ [] := by
    rintro rfl
    cases h
  have hmeets := round_meets l s h
  cases hround : round l s text with
  | stop seen =>
    rw [hround] at hmeets
    rw [scan_of_stop ht hround]
    exact hmeets
  | next seen state rest =>
    rw [hround] at hmeets
    rw [scan_of_next ht hround]
    exact hmeets.or _

/-- Where something has been met, a line is code or a comment by what it is. -/
theorem Seen.Any.kind_eq (h : seen.Any) :
    seen.kind = if seen.code then .logical else .comment := by
  rw [Seen.kind]
  rcases h with hcode | hcomment
  · rw [if_pos hcode, if_pos hcode]
  · rw [if_pos hcomment]

end Scans

end LineCensus.Classifier
