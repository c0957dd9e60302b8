import LineCensus.Text.Search

namespace LineCensus.Text

/-!
# Where tokens occur

* `dropStart?_eq_some_iff`, `startsWith_iff` — a text begins with a token if the token is a prefix.
* `startsWith_append_of_not_prefix`, `startsWith_cons_of_not_mem` — tokens that a text does not
  begin with.
* `indexOf?_eq_none_iff`, `indexOf?_eq_some_iff` — the first offset at which a token is a prefix of
  what is left of the text; `indexOf?_add_length_le` — all of the token lies within the text.
* `splitAtChar_eq_splitOn`, `splitAtChar_append_cons`, `not_mem_of_mem_splitAtChar` — the pieces of a
  text between separators are those of the library, they can be found on both sides of a separator
  apart, and they have no separators in them.
* `unifyNewlines_append`, `unifyNewlines_eq_self_iff` — line ends are unified piece by piece, and
  nothing changes in a text without carriage returns.
-/

/-- What is left of a text behind a token is what follows the token. -/
theorem dropStart?_eq_some_iff {token s rest : List Char} :
    dropStart? token s = some rest ↔ s = token ++ rest := by
  induction token generalizing s with
  | nil => simp [dropStart?, eq_comm]
  | cons a token ih =>
    cases s with
    | nil => simp [dropStart?]
    | cons b s =>
      by_cases h : a = b
      · simp [dropStart?, h, ih]
      · simp [dropStart?, h, Ne.symm h]

/-- A text starts with its prefixes. -/
theorem startsWith_iff {token s : List Char} : startsWith token s = true ↔ token <+: s := by
  rw [startsWith, Option.isSome_iff_exists]
  constructor
  · rintro ⟨rest, h⟩
    exact ⟨rest, (dropStart?_eq_some_iff.1 h).symm⟩
  · rintro ⟨rest, h⟩
    exact ⟨rest, dropStart?_eq_some_iff.2 h.symm⟩

/-- Nothing begins with a token that is not empty if it is empty itself. -/
theorem startsWith_nil {token : List Char} (h : token ≠ []) : startsWith token [] = false := by
  rw [← Bool.not_eq_true, startsWith_iff]
  simpa using h

/-- A text starts with its front. -/
theorem startsWith_append_self (token rest : List Char) :
    startsWith token (token ++ rest) = true :=
  startsWith_iff.2 (List.prefix_append token rest)

/-- Of two tokens, neither of which begins with the other, a text begins with one at most. -/
theorem startsWith_append_of_not_prefix {token other : List Char} (h : ¬ token <+: other)
    (h' : ¬ other <+: token) (rest : List Char) : startsWith other (token ++ rest) = false := by
  rw [← Bool.not_eq_true, startsWith_iff]
  intro hother
  rcases List.prefix_or_prefix_of_prefix (List.prefix_append token rest) hother with hp | hp
  · exact h hp
  · exact h' hp

/-- A text does not begin with a token that lacks its first character. -/
theorem startsWith_cons_of_not_mem {token : List Char} (hne : token ≠ []) {c : Char}
    (h : c ∉ token) (rest : List Char) : startsWith token (c :: rest) = false := by
  cases token with
  | nil => exact absurd rfl hne
  | cons a token =>
    rw [List.mem_cons, not_or] at h
    rw [startsWith, dropStart?, if_neg (Ne.symm h.1)]
    rfl

/-- A token is not found if no part of the text begins with it. -/
theorem indexOf?_eq_none_iff {token text : List Char} :
    indexOf? token text = none ↔ ∀ k, startsWith token (text.drop k) = false := by
  induction text with
  | nil =>
    simp only [indexOf?, List.drop_nil]
    cases startsWith token [] <;> simp
  | cons c s ih =>
    rw [indexOf?]
    cases h : startsWith token (c :: s) with
    | true =>
      simp only [if_true, reduceCtorEq, false_iff]
      intro hnone
      have h₀ := hnone 0
      rw [List.drop_zero, h] at h₀
      cases h₀
    | false =>
      simp only [Bool.false_eq_true, if_false, Option.map_eq_none_iff, ih]
      constructor
      · intro hs k
        cases k with
        | zero => exact h
        | succ k => exact hs k
      · intro hs k
        exact hs (k + 1)

/-- A token is found at the first offset from which the text begins with it. -/
theorem indexOf?_eq_some_iff {token text : List Char} {i : Nat} :
    indexOf? token text = some i ↔
      i ≤ text.length ∧ startsWith token (text.drop i) = true ∧
        ∀ k < i, startsWith token (text.drop k) = false := by
  -- A token at the front ends the search; otherwise every place is one further in the rest.
  induction text generalizing i with
  | nil =>
    simp only [indexOf?, List.drop_nil, List.length_nil, Nat.le_zero_eq]
    cases startsWith token [] with
    | true =>
      simp only [if_true, Option.some.injEq, true_and]
      constructor
      · rintro rfl
        exact ⟨rfl, fun k hk => absurd hk (Nat.not_lt_zero k)⟩
      · exact fun h => h.1.symm
    | false => simp
  | cons c s ih =>
    rw [indexOf?]
    cases h : startsWith token (c :: s) with
    | true =>
      simp only [if_true, Option.some.injEq]
      constructor
      · rintro rfl
        exact ⟨Nat.zero_le _, h, fun k hk => absurd hk (Nat.not_lt_zero k)⟩
      · rintro ⟨_, _, hfirst⟩
        rcases Nat.eq_zero_or_pos i with rfl | hpos
        · rfl
        · have h₀ := hfirst 0 hpos
          rw [List.drop_zero, h] at h₀
          cases h₀
    | false =>
      simp only [Bool.false_eq_true, if_false, Option.map_eq_some_iff, ih]
      constructor
      · rintro ⟨j, ⟨hle, hat, hfirst⟩, rfl⟩
        refine ⟨by simp only [List.length_cons]; omega, hat, fun k hk => ?_⟩
        cases k with
        | zero => exact h
        | succ k => exact hfirst k (by omega)
      · rintro ⟨hle, hat, hfirst⟩
        cases i with
        | zero =>
          rw [List.drop_zero, h] at hat
          cases hat
        | succ j =>
          simp only [List.length_cons] at hle
          exact ⟨j, ⟨by omega, hat, fun k hk => hfirst (k + 1) (by omega)⟩, rfl⟩

/-- A token that is found lies within the text. -/
theorem indexOf?_add_length_le {token text : List Char} {i : Nat}
    (h : indexOf? token text = some i) : i + token.length ≤ text.length := by
  obtain ⟨hle, hat, _⟩ := indexOf?_eq_some_iff.1 h
  have hlength := (startsWith_iff.1 hat).length_le
  rw [List.length_drop] at hlength
  omega

/-- A token that occurs somewhere is found there or before. -/
theorem indexOf?_le_of_startsWith {token text : List Char} {k : Nat}
    (h : startsWith token (text.drop k) = true) : ∃ i ≤ k, indexOf? token text = some i := by
  cases hi : indexOf? token text with
  | none =>
    rw [indexOf?_eq_none_iff.1 hi k] at h
    cases h
  | some i =>
    rcases Nat.lt_or_ge k i with hlt | hle
    · rw [(indexOf?_eq_some_iff.1 hi).2.2 k hlt] at h
      cases h
    · exact ⟨i, hle, rfl⟩

/-- At an offset before any at which a token is found, the text does not begin with it. -/
theorem startsWith_eq_false_of_lt_indexOf? {token text : List Char} {k : Nat}
    (h : ∀ i, indexOf? token text = some i → k < i) : startsWith token (text.drop k) = false := by
  rw [← Bool.not_eq_true]
  intro hat
  obtain ⟨i, hik, hi⟩ := indexOf?_le_of_startsWith hat
  have hki := h i hi
  omega

/-! ### Pieces -/

/-- The pieces are those into which the library cuts a list. -/
theorem splitAtChar_eq_splitOn (sep : Char) (s : List Char) : splitAtChar sep s = s.splitOn sep := by
  induction s with
  | nil => rw [splitAtChar, List.splitOn_nil]
  | cons c s ih =>
    rw [splitAtChar, List.splitOn_cons_eq_if_modifyHead, ih]
    by_cases h : c = sep
    · simp [h]
    · simp only [h, beq_iff_eq, if_false]
      -- There is a first piece, and it takes the character.
      cases hpieces : s.splitOn sep with
      | nil => exact absurd hpieces (List.splitOn_ne_nil sep s)
      | cons piece pieces => rfl

/-- Cut at one occurrence, the pieces of both sides are the pieces. -/
theorem splitAtChar_append_cons (sep : Char) (s t : List Char) :
    splitAtChar sep (s ++ sep :: t) = splitAtChar sep s ++ splitAtChar sep t := by
  simp only [splitAtChar_eq_splitOn, List.splitOn]
  exact List.splitOnP_append_cons s t (beq_self_eq_true sep)

/-- A text without the separator is one piece. -/
theorem splitAtChar_of_not_mem {sep : Char} {s : List Char} (h : sep ∉ s) :
    splitAtChar sep s = [s] := by
  induction s with
  | nil => rfl
  | cons c s ih =>
    rw [List.mem_cons, not_or] at h
    rw [splitAtChar, if_neg (Ne.symm h.1), ih h.2]

/-- No piece has the character at which the text is cut. -/
theorem not_mem_of_mem_splitAtChar {sep : Char} {s piece : List Char}
    (h : piece ∈ splitAtChar sep s) : sep ∉ piece := by
  induction s generalizing piece with
  | nil =>
    obtain rfl := List.mem_singleton.1 h
    exact List.not_mem_nil
  | cons c s ih =>
    rw [splitAtChar] at h
    by_cases hc : c = sep
    · rw [if_pos hc] at h
      rcases List.mem_cons.1 h with rfl | h
      · exact List.not_mem_nil
      · exact ih h
    · rw [if_neg hc] at h
      cases hpieces : splitAtChar sep s with
      | nil =>
        rw [hpieces] at h
        obtain rfl := List.mem_singleton.1 h
        rw [List.mem_singleton]
        exact Ne.symm hc
      | cons first pieces =>
        rw [hpieces] at h ih
        rcases List.mem_cons.1 h with rfl | h
        · rw [List.mem_cons, not_or]
          exact ⟨Ne.symm hc, ih List.mem_cons_self⟩
        · exact ih (List.mem_cons_of_mem first h)

/-! ### Line ends -/

/-- Any other character stays. -/
theorem unifyNewlines_cons {c : Char} (h : c ≠ '\r') (s : List Char) :
    unifyNewlines (c :: s) = c :: unifyNewlines s := by
  rw [unifyNewlines]
  · exact fun _ hc _ => h hc
  · exact h

/-- A carriage return that is a line end of its own. -/
theorem unifyNewlines_return {s : List Char} (h : s.head? ≠ some '\n') :
    unifyNewlines ('\r' :: s) = '\n' :: unifyNewlines s := by
  rw [unifyNewlines]
  rintro t rfl
  exact h rfl

/-- Line ends are unified in two pieces if no line end is cut in two. -/
theorem unifyNewlines_append (s : List Char) {t : List Char} (h : t.head? ≠ some '\n') :
    unifyNewlines (s ++ t) = unifyNewlines s ++ unifyNewlines t := by
  fun_induction unifyNewlines s with
  | case1 => rfl
  | case2 s ih => exact congrArg ('\n' :: ·) ih
  | case3 s hs ih =>
    have hhead : (s ++ t).head? ≠ some '\n' := by
      cases s with
      | nil => exact h
      | cons c s =>
        rw [List.cons_append, List.head?_cons, ne_eq, Option.some.injEq]
        rintro rfl
        exact hs s rfl
    rw [List.cons_append, unifyNewlines_return hhead, ih, List.cons_append]
  | case4 c s _ hc ih => rw [List.cons_append, unifyNewlines_cons hc, ih, List.cons_append]

/-- A piece without carriage returns stays as it is. -/
theorem unifyNewlines_append_of_not_mem {s : List Char} (h : '\r' ∉ s) (t : List Char) :
    unifyNewlines (s ++ t) = s ++ unifyNewlines t := by
  induction s with
  | nil => rfl
  | cons c s ih =>
    rw [List.mem_cons, not_or] at h
    rw [List.cons_append, unifyNewlines_cons (Ne.symm h.1), ih h.2, List.cons_append]

/-- No text vanishes, and none comes up. -/
theorem isEmpty_unifyNewlines (t : List Char) : (unifyNewlines t).isEmpty = t.isEmpty := by
  fun_cases unifyNewlines t <;> rfl

/-- No carriage return is left. -/
theorem not_mem_unifyNewlines (s : List Char) : '\r' ∉ unifyNewlines s := by
  fun_induction unifyNewlines s with
  | case1 => exact List.not_mem_nil
  | case2 s ih => simpa using ih
  | case3 s hs ih => simpa using ih
  | case4 c s _ hc ih =>
    rw [List.mem_cons, not_or]
    exact ⟨fun h => hc h.symm, ih⟩

/-- Only carriage returns are changed. -/
theorem unifyNewlines_eq_self_iff {s : List Char} : unifyNewlines s = s ↔ '\r' ∉ s := by
  constructor
  · intro h
    rw [← h]
    exact not_mem_unifyNewlines s
  · intro h
    induction s with
    | nil => rfl
    | cons c s ih =>
      rw [List.mem_cons, not_or] at h
      rw [unifyNewlines_cons (Ne.symm h.1), ih h.2]

end LineCensus.Text
