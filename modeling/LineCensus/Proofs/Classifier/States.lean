import LineCensus.Proofs.Classifier.Walk

namespace LineCensus.Classifier

open Text

/-!
# The states behind lines

A state is a depth and a pair of delimiters, and not every combination of the two makes sense.  The
classifier only comes to those that do:

* `State.Sound` — what holds of the states that the classifier comes to.
* `State.Sound.advance`, `State.Sound.scan`, `State.Sound.classify` — a round and a line keep it.
* `met`, `State.Sound.met` — every line with the state in which it is met, which is a sound one.
* `sound_traceFile` — so it holds behind every line of a file.
-/

/-- The state behind a line is that behind its scan; a blank line is not scanned. -/
theorem classify_state (l : Language) (exclude : Bool) (s : State) (line : List Char) :
    (classify l exclude s line).2 = if allBlank line then s else (scan l s line).2 := by
  unfold classify
  split
  · rfl
  · simp only
    split <;> rfl

/-! ### Sound states -/

/-- A state that lines can lead to: the depth counts open blocks, delimiters are those of an open
    block of the language, and only blocks that nest get deeper than one. -/
structure State.Sound (l : Language) (s : State) : Prop where
  depth_nonneg : 0 ≤ s.depth
  depth_eq_zero_iff : s.depth = 0 ↔ s.pair = none
  pair_mem : ∀ pair, s.pair = some pair → pair ∈ l.blockComments
  nests_of_deep : 1 < s.depth →
    l.nested = true ∧ ∃ pair, s.pair = some pair ∧ pair.opening ≠ pair.closing

/-- The state at some depth between delimiters; at depth 0 none are open. -/
def State.within (pair : Delimiters) (depth : Int) : State :=
  ⟨depth, if depth = 0 then none else some pair⟩

theorem State.within_of_ne (pair : Delimiters) {depth : Int} (h : depth ≠ 0) :
    within pair depth = ⟨depth, some pair⟩ := by
  rw [within, if_neg h]

theorem nests_iff {l : Language} {pair : Delimiters} :
    l.nests pair = true ↔ l.nested = true ∧ pair.opening ≠ pair.closing := by
  rw [Language.nests, Bool.and_eq_true, bne_iff_ne]

/-- What is found as the next opening delimiter belongs to a block comment of the language. -/
theorem mem_blockComments_of_nextOpening? {l : Language} {text : List Char} {i : Nat}
    {pair : Delimiters} (h : nextOpening? (openings l) text = some (i, .block pair)) :
    pair ∈ l.blockComments := by
  rcases List.mem_append.1 (nextOpening?_found h).1 with hline | hblock
  · obtain ⟨token, _, htoken⟩ := List.mem_map.1 hline
    cases htoken
  · obtain ⟨found, hfound, heq⟩ := List.mem_map.1 hblock
    cases heq
    exact hfound

namespace State.Sound

variable {l : Language} {s : State}

/-- At depth 0 a sound state is that outside all comments. -/
theorem depth_eq_zero_iff_outside (hs : s.Sound l) : s.depth = 0 ↔ s = .outside := by
  constructor
  · intro h
    obtain ⟨depth, pair⟩ := s
    have hpair : pair = none := hs.depth_eq_zero_iff.1 h
    rw [outside, show depth = 0 from h, hpair]
  · rintro rfl
    rfl

theorem outside (l : Language) : State.outside.Sound l where
  depth_nonneg := Int.le_refl 0
  depth_eq_zero_iff := ⟨fun _ => rfl, fun _ => rfl⟩
  pair_mem := by
    rintro pair ⟨⟩
  nests_of_deep := by
    intro h
    cases h

/-- Between delimiters of the language a state is sound at depth 1, and at any other if blocks
    nest. -/
theorem within {pair : Delimiters} {depth : Int} (hmem : pair ∈ l.blockComments)
    (hdepth : 0 ≤ depth) (hnests : 1 < depth → l.nests pair = true) :
    (State.within pair depth).Sound l := by
  rcases Int.lt_or_eq_of_le hdepth with hpos | rfl
  · rw [State.within_of_ne pair (by omega)]
    refine ⟨hdepth, ⟨fun h => ?_, fun h => ?_⟩, ?_, fun hdeep => ?_⟩
    · have hzero : depth = 0 := h
      omega
    · cases h
    · rintro open' ⟨⟩
      exact hmem
    · obtain ⟨hnested, hne⟩ := nests_iff.1 (hnests hdeep)
      exact ⟨hnested, pair, rfl, hne⟩
  · exact outside l

/-- A round that goes on keeps the state sound. -/
theorem advance {state : State} {text : List Char} {n : Nat} (hs : s.Sound l)
    (h : Advances l s text n state) : state.Sound l := by
  -- Each new state is one that `within` speaks of; its delimiters were found or were open before.
  cases h with
  | @opens i pair hdepth hfound =>
    have hsound : (State.within pair 1).Sound l :=
      within (mem_blockComments_of_nextOpening? hfound) (by omega) fun hdeep => by omega
    exact hsound
  | @enters i pair hdepth hpair hi hnearer =>
    have hnonneg := hs.depth_nonneg
    have hsound : (State.within pair (s.depth + 1)).Sound l :=
      within (hs.pair_mem pair hpair) (by omega) fun _ => (nestedOpening?_some hi).1
    rwa [State.within_of_ne pair (by omega)] at hsound
  | @leaves j pair hdepth hpair hj hnearer =>
    -- A closing delimiter leads one level up if blocks nest, and out of all of them otherwise.
    have hnonneg := hs.depth_nonneg
    apply within (hs.pair_mem pair hpair)
    · split <;> omega
    · intro hdeep
      cases hnests : l.nests pair with
      | true => rfl
      | false =>
        rw [hnests, if_neg Bool.false_ne_true] at hdeep
        omega

/-- A line keeps the state sound, round by round. -/
theorem scan (hs : s.Sound l) (text : List Char) : (Classifier.scan l s text).2.Sound l := by
  fun_induction Classifier.scan l s text with
  | case1 s => exact hs
  | case2 s text ht seen hround => exact hs
  | case3 s text ht seen state rest hround _ later ih =>
    obtain ⟨n, hadvances, -⟩ := exists_advances hround
    exact ih (hs.advance hadvances)

theorem classify (hs : s.Sound l) (exclude : Bool) (line : List Char) :
    (Classifier.classify l exclude s line).2.Sound l := by
  rw [classify_state]
  split
  · exact hs
  · exact hs.scan line

end State.Sound

/-! ### Sequences of lines -/

/-- Every line with the state in which it is met, the first one with `s`. -/
def met (l : Language) (s : State) : List (List Char) → List (State × List Char)
  | [] => []
  | line :: lines => (s, line) :: met l (classify l false s line).2 lines

theorem length_met (l : Language) (s : State) (lines : List (List Char)) :
    (met l s lines).length = lines.length := by
  induction lines generalizing s with
  | nil => rfl
  | cons line lines ih => simp only [met, List.length_cons, ih]

/-- The steps are those of the lines one by one, in the states in which these are met. -/
theorem trace_eq_map_met (l : Language) (exclude : Bool) (s : State) (lines : List (List Char)) :
    trace l exclude s lines = (met l s lines).map fun p => classify l exclude p.1 p.2 := by
  induction lines generalizing s with
  | nil => rfl
  | cons line lines ih =>
    -- The states do not depend on `exclude`, so the later lines are met in the same ones.
    have hstate : (classify l exclude s line).2 = (classify l false s line).2 := by
      rw [classify_state, classify_state]
    simp only [trace, met, List.map_cons, ih, hstate]

/-- From a sound state on, all lines are met in sound states. -/
theorem State.Sound.met {l : Language} {s : State} (hs : s.Sound l) (lines : List (List Char)) :
    ∀ p ∈ Classifier.met l s lines, p.1.Sound l := by
  induction lines generalizing s with
  | nil =>
    intro p hp
    cases hp
  | cons line lines ih =>
    intro p hp
    rcases List.mem_cons.1 hp with rfl | hlater
    · exact hs
    · exact ih (hs.classify false line) p hlater

/-- **Depths of open blocks.**  Behind every line of a file the depth is no less than 0, and 0
    exactly if no block is open; the open block has delimiters of the language, and the depth is
    more than 1 only if the language nests comments and the two delimiters differ. -/
theorem sound_traceFile (l : Language) (exclude : Bool) (lines : List String) :
    ∀ r ∈ traceFile l exclude lines, r.2.Sound l := by
  intro r hr
  rw [traceFile, trace_eq_map_met] at hr
  obtain ⟨p, hp, rfl⟩ := List.mem_map.1 hr
  have hmet : p.1.Sound l := (State.Sound.outside l).met _ p hp
  exact hmet.classify exclude p.2

/-- `sound_traceFile` behind a line that opens two blocks, closes them and one more, and opens
    others. -/
theorem sound_traceFile_nested :
    let rust : Language := { slashLanguage "Rust" ["rust"] ["rs"] with nested := true }
    (.logical, ⟨2, some slashStar⟩) ∈
        traceFile rust false ["/* a /* b", "*/ */ c */ /* d /* e"] ∧
      State.Sound rust ⟨2, some slashStar⟩ := by
  intro rust
  have hmem : (.logical, ⟨2, some slashStar⟩) ∈
      traceFile rust false ["/* a /* b", "*/ */ c */ /* d /* e"] := by decide +kernel
  exact ⟨hmem, sound_traceFile rust false _ _ hmem⟩

end LineCensus.Classifier
