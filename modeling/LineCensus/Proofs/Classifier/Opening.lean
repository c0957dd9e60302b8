import LineCensus.Classifier.Scan
import LineCensus.Proofs.Text.Search

namespace LineCensus.Classifier

open Text

/-!
# The token that opens a comment

The search for the next opening token looks for every token in turn and keeps the best one found so
far.  What it finds is what a reader of the text meets first:

* `openingsAt`, `longest?` — the openings at the front of a text, and the one that wins there.
* `Preferred` — the invariant of the search.
* `nextOpening?_none` — where nothing is found, no part of the text begins with an opening.
* `nextOpening?_before`, `nextOpening?_longest` — what is found is the longest opening at the first
  place where there is one.
-/

/-- The openings that stand at the front of a text, as they are listed. -/
def openingsAt (l : Language) (text : List Char) : List Opening :=
  (openings l).filter fun o => startsWith o.token text

/-- The longest of some openings; of equally long ones the first listed. -/
def longest? : List Opening → Option Opening
  | [] => none
  | o :: os =>
    match longest? os with
    | some best => if o.token.length < best.token.length then some best else some o
    | none => some o

theorem longest?_mem {os : List Opening} {o : Opening} (h : longest? os = some o) : o ∈ os := by
  induction os generalizing o with
  | nil => cases h
  | cons a os ih =>
    rw [longest?] at h
    split at h
    · next best hbest =>
      split at h
      · cases h
        exact List.mem_cons_of_mem a (ih hbest)
      · cases h
        exact List.mem_cons_self
    · cases h
      exact List.mem_cons_self

/-- An opening wins if it is longer than all before it and no shorter than all behind it. -/
theorem longest?_eq_some {front back : List Opening} {o : Opening}
    (hfront : ∀ a ∈ front, a.token.length < o.token.length)
    (hback : ∀ a ∈ back, a.token.length ≤ o.token.length) :
    longest? (front ++ o :: back) = some o := by
  induction front with
  | nil =>
    rw [List.nil_append, longest?]
    split
    · next best hbest => rw [if_neg (Nat.not_lt.2 (hback best (longest?_mem hbest)))]
    · rfl
  | cons a front ih =>
    rw [List.cons_append, longest?, ih fun b hb => hfront b (List.mem_cons_of_mem a hb)]
    exact if_pos (hfront a List.mem_cons_self)

/-! ### The search -/

/-- What the search holds after some candidates: nothing if none of them occurs, or else one that
    comes before all others, the longest of those at its place and the first listed of those. -/
def Preferred (candidates : List Opening) (text : List Char) : Option (Nat × Opening) → Prop
  | none => ∀ o ∈ candidates, indexOf? o.token text = none
  | some (i, o) => ∃ front back, candidates = front ++ o :: back ∧ indexOf? o.token text = some i ∧
      (∀ a ∈ front, ∀ j, indexOf? a.token text = some j →
        i < j ∨ i = j ∧ a.token.length < o.token.length) ∧
      ∀ a ∈ back, ∀ j, indexOf? a.token text = some j →
        i < j ∨ i = j ∧ a.token.length ≤ o.token.length

/-- No candidate comes before the one that is held, nor is one at its place longer. -/
theorem Preferred.le {candidates : List Opening} {text : List Char} {i : Nat} {o : Opening}
    (h : Preferred candidates text (some (i, o))) {a : Opening} (ha : a ∈ candidates) {j : Nat}
    (hj : indexOf? a.token text = some j) :
    i < j ∨ i = j ∧ a.token.length ≤ o.token.length := by
  obtain ⟨front, back, rfl, hi, hfront, hback⟩ := h
  rcases List.mem_append.1 ha with ha | ha
  · rcases hfront a ha j hj with h | ⟨h, hlen⟩
    · exact .inl h
    · exact .inr ⟨h, Nat.le_of_lt hlen⟩
  · rcases List.mem_cons.1 ha with rfl | ha
    · rw [hi, Option.some.injEq] at hj
      exact .inr ⟨hj, Nat.le_refl _⟩
    · exact hback a ha j hj

/-- What the search holds is one of the candidates, at the first place where it occurs. -/
theorem Preferred.found {candidates : List Opening} {text : List Char} {i : Nat} {o : Opening}
    (h : Preferred candidates text (some (i, o))) :
    o ∈ candidates ∧ indexOf? o.token text = some i := by
  obtain ⟨front, back, rfl, hi, _⟩ := h
  exact ⟨List.mem_append_right front List.mem_cons_self, hi⟩

/-- A candidate that is better than all before it is held instead. -/
theorem Preferred.replace {candidates : List Opening} {text : List Char} {i : Nat} {o : Opening}
    (hi : indexOf? o.token text = some i)
    (h : ∀ a ∈ candidates, ∀ j, indexOf? a.token text = some j →
      i < j ∨ i = j ∧ a.token.length < o.token.length) :
    Preferred (candidates ++ [o]) text (some (i, o)) :=
  ⟨candidates, [], rfl, hi, h, fun _ ha => absurd ha List.not_mem_nil⟩

/-- A candidate that is no better than the one that is held changes nothing. -/
theorem Preferred.keep {candidates : List Opening} {text : List Char} {i : Nat} {best o : Opening}
    (h : Preferred candidates text (some (i, best)))
    (ho : ∀ j, indexOf? o.token text = some j →
      i < j ∨ i = j ∧ o.token.length ≤ best.token.length) :
    Preferred (candidates ++ [o]) text (some (i, best)) := by
  obtain ⟨front, back, rfl, hi, hfront, hback⟩ := h
  refine ⟨front, back ++ [o], by simp, hi, hfront, fun a ha => ?_⟩
  rcases List.mem_append.1 ha with ha | ha
  · exact hback a ha
  · rw [List.mem_singleton.1 ha]
    exact ho

/-- One more candidate. -/
theorem Preferred.step {candidates : List Opening} {text : List Char}
    {found : Option (Nat × Opening)} (h : Preferred candidates text found) (o : Opening) :
    Preferred (candidates ++ [o]) text
      (match indexOf? o.token text with
        | some j => if better found j o then some (j, o) else found
        | none => found) := by
  cases hj : indexOf? o.token text with
  | none =>
    cases found with
    | none =>
      intro a ha
      rcases List.mem_append.1 ha with ha | ha
      · exact h a ha
      · rwa [List.mem_singleton.1 ha]
    | some held =>
      refine h.keep fun k hk => ?_
      rw [hj] at hk
      cases hk
  | some j =>
    cases found with
    | none =>
      refine .replace hj fun a ha k hk => ?_
      rw [h a ha] at hk
      cases hk
    | some held =>
      obtain ⟨i, best⟩ := held
      simp only [better, Bool.or_eq_true, decide_eq_true_eq, Bool.and_eq_true, beq_iff_eq]
      split
      · next hbetter =>
        -- The candidate comes before the one that was held, or it is longer at the same place.
        refine .replace hj fun a ha k hk => ?_
        have hle := h.le ha hk
        omega
      · next hworse =>
        -- Of equals the one that was listed first is kept.
        refine h.keep fun k hk => ?_
        rw [hj, Option.some.injEq] at hk
        omega

/-- The search keeps its invariant over all candidates. -/
theorem preferred_nextOpening? (candidates : List Opening) (text : List Char) :
    Preferred candidates text (nextOpening? candidates text) := by
  have run (rest done : List Opening) (found : Option (Nat × Opening))
      (h : Preferred done text found) :
      Preferred (done ++ rest) text (rest.foldl (fun found o =>
        match indexOf? o.token text with
        | some i => if better found i o then some (i, o) else found
        | none => found) found) := by
    induction rest generalizing done found with
    | nil => simpa using h
    | cons o rest ih =>
      rw [List.foldl_cons, List.append_cons]
      exact ih _ _ (h.step o)
  exact run candidates [] none fun o ho => by cases ho

variable {l : Language} {text : List Char}

/-- Where no opening is found, no part of the text begins with one. -/
theorem nextOpening?_none (h : nextOpening? (openings l) text = none) (k : Nat) :
    openingsAt l (text.drop k) = [] := by
  have hinv := preferred_nextOpening? (openings l) text
  rw [h] at hinv
  apply List.filter_eq_nil_iff.2
  intro o ho
  rw [indexOf?_eq_none_iff.1 (hinv o ho) k]
  exact Bool.false_ne_true

/-- No opening is empty. -/
theorem openings_token_ne {o : Opening} (h : o ∈ openings l) : o.token ≠ [] := by
  rcases List.mem_append.1 h with hline | hblock
  · obtain ⟨token, htoken, rfl⟩ := List.mem_map.1 hline
    exact List.ne_nil_of_length_pos (length_toList_pos (l.lineComments_ne token htoken))
  · obtain ⟨pair, _, rfl⟩ := List.mem_map.1 hblock
    exact List.ne_nil_of_length_pos (length_toList_pos pair.opening_ne)

/-- What is found is one of the openings, at the first place where it occurs. -/
theorem nextOpening?_found {i : Nat} {o : Opening}
    (h : nextOpening? (openings l) text = some (i, o)) :
    o ∈ openings l ∧ indexOf? o.token text = some i := by
  have hinv := preferred_nextOpening? (openings l) text
  rw [h] at hinv
  exact hinv.found

/-- What is found lies within the text. -/
theorem nextOpening?_lt {i : Nat} {o : Opening}
    (h : nextOpening? (openings l) text = some (i, o)) : i < text.length := by
  obtain ⟨hmem, hi⟩ := nextOpening?_found h
  have hpos := List.length_pos_iff.2 (openings_token_ne hmem)
  have hle := indexOf?_add_length_le hi
  omega

/-- Before what is found, no part of the text begins with an opening. -/
theorem nextOpening?_before {i : Nat} {o : Opening}
    (h : nextOpening? (openings l) text = some (i, o)) {k : Nat} (hk : k < i) :
    openingsAt l (text.drop k) = [] := by
  have hinv := preferred_nextOpening? (openings l) text
  rw [h] at hinv
  apply List.filter_eq_nil_iff.2
  intro a ha hat
  obtain ⟨j, hjk, hj⟩ := indexOf?_le_of_startsWith hat
  have hle := hinv.le ha hj
  omega

/-- What is found is the opening that wins at its place. -/
theorem nextOpening?_longest {i : Nat} {o : Opening}
    (h : nextOpening? (openings l) text = some (i, o)) :
    longest? (openingsAt l (text.drop i)) = some o := by
  have hinv := preferred_nextOpening? (openings l) text
  rw [h] at hinv
  obtain ⟨front, back, hsplit, hi, hfront, hback⟩ := hinv
  have hat := (indexOf?_eq_some_iff.1 hi).2.1
  have hkept : ((o :: back).filter fun a => startsWith a.token (text.drop i)) =
      o :: back.filter fun a => startsWith a.token (text.drop i) := List.filter_cons_of_pos hat
  rw [openingsAt, hsplit, List.filter_append, hkept]
  -- An opening that stands at offset `i` is found there or before, so only its length counts.
  apply longest?_eq_some
  · intro a ha
    obtain ⟨ha, hata⟩ := List.mem_filter.1 ha
    obtain ⟨j, hji, hj⟩ := indexOf?_le_of_startsWith hata
    have := hfront a ha j hj
    omega
  · intro a ha
    obtain ⟨ha, hata⟩ := List.mem_filter.1 ha
    obtain ⟨j, hji, hj⟩ := indexOf?_le_of_startsWith hata
    have := hback a ha j hj
    omega

end LineCensus.Classifier
