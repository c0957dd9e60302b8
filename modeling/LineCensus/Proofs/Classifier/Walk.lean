import LineCensus.Classifier.Basic
import LineCensus.Language.Builtin
import LineCensus.Proofs.Classifier.Rounds

namespace LineCensus.Classifier

open Text

/-!
# Walking along a line

The scan of a line jumps from token to token.  Here is a reader that looks at one place at a time,
and the proof that the two see the same and end in the same state:

* `Mode`, `walk` — where the reader is, and what it makes of the rest of a line.
* `walkLine`, `walkLines` — the kind of a line and the mode behind it, line by line.
* `walk_outside_skip`, `walk_inside_skip` — places where no token counts are passed over.
* `scan_eq_walk` — the simulation, by induction on what is left of the line.
* `traceFile_eq_walkLines` — the classifier and the reader agree on every file.
-/

/-! ### The reader -/

/-- Where the reader is: outside comments, or between the delimiters of a block comment with so many
    further ones open inside of it. -/
inductive Mode where
  | outside
  | inside (pair : Delimiters) (further : Nat)
  deriving DecidableEq

/-- The depth of open comments and the delimiters of the outermost one. -/
def Mode.state : Mode → State
  | .outside => ⟨0, none⟩
  | .inside pair further => ⟨further + 1, some pair⟩

/-- The mode behind a closing token.  Only comments that nest are closed one by one. -/
def Mode.closed (l : Language) (pair : Delimiters) : Nat → Mode
  | 0 => .outside
  | further + 1 => if l.nests pair then .inside pair further else .outside

/-- What was met in front of the rest of a line is added to what the rest comes to. -/
def behind (seen : Seen) (later : Seen × Mode) : Seen × Mode := (seen.or later.1, later.2)

/-- Reads the rest of a line from its first character on.  Outside comments a character is code
    unless it is blank or an opening stands there, of which the longest is taken; a line comment
    takes the rest of the line.  Between delimiters only these count, the closing one first. -/
def walk (l : Language) (m : Mode) : List Char → Seen × Mode
  | [] => (⟨false, false⟩, m)
  | c :: rest =>
    match m with
    | .outside =>
      match longest? (openingsAt l (c :: rest)) with
      | none => behind ⟨!isBlank c, false⟩ (walk l .outside rest)
      | some (.line _) => (⟨false, true⟩, .outside)
      | some (.block pair) =>
        have := length_toList_pos pair.opening_ne
        behind ⟨false, true⟩
          (walk l (.inside pair 0) ((c :: rest).drop pair.opening.toList.length))
    | .inside pair further =>
      have := length_toList_pos pair.opening_ne
      have := length_toList_pos pair.closing_ne
      behind ⟨false, true⟩
        (if startsWith pair.closing.toList (c :: rest) then
          walk l (.closed l pair further) ((c :: rest).drop pair.closing.toList.length)
        else if l.nests pair && startsWith pair.opening.toList (c :: rest) then
          walk l (.inside pair (further + 1)) ((c :: rest).drop pair.opening.toList.length)
        else walk l (.inside pair further) rest)
termination_by text => text.length

/-- The kind of a line that is met in a mode, and the mode behind it.  A blank line belongs to the
    comment it stands in.  A directive outside comments is code or, with `exclude`, not counted; any
    other line is code if there is any on it, and otherwise a comment. -/
def walkLine (l : Language) (exclude : Bool) (m : Mode) (line : List Char) : LineKind × Mode :=
  if allBlank line then (if m = .outside then .empty else .comment, m)
  else
    let (seen, next) := walk l m line
    if m = .outside ∧ isDirective l line then (if exclude then .excluded else .logical, next)
    else (if seen.code then .logical else .comment, next)

/-- The kinds of all lines and the modes behind them. -/
def walkLines (l : Language) (exclude : Bool) (m : Mode) :
    List (List Char) → List (LineKind × Mode)
  | [] => []
  | line :: lines =>
    let r := walkLine l exclude m line
    r :: walkLines l exclude r.2 lines

/-! ### Single places -/

section Places

variable {l : Language} {text : List Char} {pair : Delimiters} {n : Nat}

@[simp] theorem walk_nil (l : Language) (m : Mode) : walk l m [] = (⟨false, false⟩, m) := by
  rw [walk]

@[simp] theorem behind_nothing (r : Seen × Mode) : behind ⟨false, false⟩ r = r := by
  simp [behind, Seen.or]

@[simp] theorem behind_behind (a b : Seen) (r : Seen × Mode) :
    behind a (behind b r) = behind (a.or b) r := by
  simp [behind, Seen.or, Bool.or_assoc]

/-- A token that is not empty stands at the front of no empty text. -/
theorem ne_nil_of_startsWith {token : String} (h : token ≠ "")
    (hs : startsWith token.toList text = true) : text ≠ [] := by
  rintro rfl
  rw [startsWith_nil (List.ne_nil_of_length_pos (length_toList_pos h))] at hs
  cases hs

/-- A line comment takes the rest of the line. -/
theorem walk_outside_line {token : String} (ht : text ≠ [])
    (h : longest? (openingsAt l text) = some (.line token)) :
    walk l .outside text = (⟨false, true⟩, .outside) := by
  cases text with
  | nil => exact absurd rfl ht
  | cons c rest => simp only [walk, h]

/-- An opening delimiter is taken whole. -/
theorem walk_outside_block (ht : text ≠ [])
    (h : longest? (openingsAt l text) = some (.block pair)) :
    walk l .outside text =
      behind ⟨false, true⟩ (walk l (.inside pair 0) (text.drop pair.opening.toList.length)) := by
  cases text with
  | nil => exact absurd rfl ht
  | cons c rest => rw [walk]; simp only [h]

/-- The closing delimiter comes first. -/
theorem walk_inside_close (h : startsWith pair.closing.toList text = true) :
    walk l (.inside pair n) text = behind ⟨false, true⟩
      (walk l (.closed l pair n) (text.drop pair.closing.toList.length)) := by
  cases text with
  | nil => exact absurd rfl (ne_nil_of_startsWith pair.closing_ne h)
  | cons c rest => rw [walk, if_pos h]

/-- The opening delimiter counts if comments nest. -/
theorem walk_inside_open (hc : startsWith pair.closing.toList text = false)
    (hn : l.nests pair = true) (ho : startsWith pair.opening.toList text = true) :
    walk l (.inside pair n) text = behind ⟨false, true⟩
      (walk l (.inside pair (n + 1)) (text.drop pair.opening.toList.length)) := by
  cases text with
  | nil => exact absurd rfl (ne_nil_of_startsWith pair.opening_ne ho)
  | cons c rest => rw [walk, hc, hn, ho]; rfl

/-- Between delimiters everything is comment. -/
theorem behind_walk_inside (ht : text ≠ []) :
    behind ⟨false, true⟩ (walk l (.inside pair n) text) = walk l (.inside pair n) text := by
  cases text with
  | nil => exact absurd rfl ht
  | cons c rest =>
    rw [walk, behind_behind]
    rfl

/-! ### Places that are passed over -/

/-- Outside comments, places without openings are read one by one. -/
theorem walk_outside_skip {i : Nat} (hi : i ≤ text.length)
    (h : ∀ k < i, openingsAt l (text.drop k) = []) :
    walk l .outside text =
      behind ⟨!allBlank (text.take i), false⟩ (walk l .outside (text.drop i)) := by
  -- The induction is on the number of places, the first of which is the front of the text.
  induction i generalizing text with
  | zero => simp [allBlank]
  | succ i ih =>
    cases text with
    | nil => simp at hi
    | cons c rest =>
      have hhere : openingsAt l (c :: rest) = [] := h 0 (Nat.zero_lt_succ i)
      have hrest := ih (Nat.le_of_succ_le_succ hi)
        fun k hk => h (k + 1) (Nat.succ_lt_succ hk)
      rw [walk, hhere, longest?]
      simp only
      rw [hrest, behind_behind, List.take_succ_cons, List.drop_succ_cons]
      simp [Seen.or, allBlank, Bool.not_and]

/-- Between delimiters, places where none of them counts are passed over. -/
theorem walk_inside_skip {i : Nat} (hi : i ≤ text.length)
    (h : ∀ k < i, startsWith pair.closing.toList (text.drop k) = false ∧
      (l.nests pair && startsWith pair.opening.toList (text.drop k)) = false) :
    behind ⟨false, true⟩ (walk l (.inside pair n) text) =
      behind ⟨false, true⟩ (walk l (.inside pair n) (text.drop i)) := by
  induction i generalizing text with
  | zero => rw [List.drop_zero]
  | succ i ih =>
    cases text with
    | nil => simp at hi
    | cons c rest =>
      obtain ⟨hclose, hopen⟩ := h 0 (Nat.zero_lt_succ i)
      rw [List.drop_zero] at hclose hopen
      have hrest := ih (Nat.le_of_succ_le_succ hi)
        fun k hk => h (k + 1) (Nat.succ_lt_succ hk)
      rw [walk, hclose, hopen, behind_behind, List.drop_succ_cons, ← hrest]
      rfl

end Places

/-! ### Jumps and places -/

/-- What the reader comes to, with its mode as a state of the classifier. -/
def viewed (r : Seen × Mode) : Seen × State := (r.1, r.2.state)

theorem viewed_behind (seen : Seen) (r : Seen × Mode) :
    viewed (behind seen r) = (seen.or (viewed r).1, (viewed r).2) := rfl

/-- A closing token does to the state what it does to the mode. -/
theorem leave_state (l : Language) (pair : Delimiters) (n : Nat) :
    (Mode.inside pair n).state.leave l pair = (Mode.closed l pair n).state := by
  cases n with
  | zero => cases h : l.nests pair <;> simp [Mode.state, State.leave, Mode.closed, h]
  | succ n =>
    cases h : l.nests pair with
    | false => simp [Mode.state, State.leave, Mode.closed, h]
    | true =>
      have hne : ((n : Int) + 1) ≠ 0 := by omega
      simp [Mode.state, State.leave, Mode.closed, h, hne]

/-- Outside comments: the jump to the next opening, and the places up to it. -/
theorem scan_outside {l : Language} {text : List Char} (ht : text ≠ [])
    (ih : ∀ (m : Mode) (rest : List Char), rest.length < text.length →
      scan l m.state rest = viewed (walk l m rest)) :
    scan l Mode.outside.state text = viewed (walk l .outside text) := by
  have hround : round l Mode.outside.state text = outsideRound l text := if_pos rfl
  cases hfound : nextOpening? (openings l) text with
  | none =>
    rw [outsideRound, hfound] at hround
    rw [scan_of_stop ht hround,
      walk_outside_skip (Nat.le_refl _) fun k _ => nextOpening?_none hfound k]
    simp [viewed, behind, Seen.or]
  | some found =>
    obtain ⟨i, o⟩ := found
    have hi := nextOpening?_lt hfound
    have hrest : text.drop i ≠ [] := List.ne_nil_of_length_pos (by rw [List.length_drop]; omega)
    have hlongest := nextOpening?_longest hfound
    rw [walk_outside_skip (Nat.le_of_lt hi) fun k hk => nextOpening?_before hfound hk]
    -- A line comment ends the scan; behind an opening delimiter both go on with a shorter rest.
    cases o with
    | line token =>
      simp only [outsideRound, hfound] at hround
      rw [scan_of_stop ht hround, walk_outside_line hrest hlongest]
      simp [viewed, behind, Seen.or]
    | block pair =>
      simp only [outsideRound, hfound] at hround
      have hshorter := round_rest_lt ht hround
      have hlater := ih (.inside pair 0) _ hshorter
      rw [scan_of_next ht hround, walk_outside_block hrest hlongest, behind_behind, List.drop_drop,
        viewed_behind, ← hlater]
      simp [Mode.state, Seen.or]

section Inside

variable {l : Language} {text : List Char} {pair : Delimiters} {n : Nat}

/-- At a place before any at which an opening delimiter is found, none counts. -/
theorem nestedOpening?_before {k : Nat} (h : ∀ i, nestedOpening? l pair text = some i → k < i) :
    (l.nests pair && startsWith pair.opening.toList (text.drop k)) = false := by
  cases hn : l.nests pair with
  | false => rfl
  | true =>
    rw [nestedOpening?, if_pos hn] at h
    exact startsWith_eq_false_of_lt_indexOf? h

/-- The reader on its way to an opening delimiter. -/
theorem walk_inside_enter {i : Nat} (ht : text ≠ []) (hi : nestedOpening? l pair text = some i)
    (hnearer : ∀ j, indexOf? pair.closing.toList text = some j → i < j) :
    walk l (.inside pair n) text = behind ⟨false, true⟩
      (walk l (.inside pair (n + 1)) (text.drop (i + pair.opening.toList.length))) := by
  obtain ⟨hn, hindex⟩ := nestedOpening?_some hi
  obtain ⟨hle, hat, hbefore⟩ := indexOf?_eq_some_iff.1 hindex
  have hc : ∀ k ≤ i, startsWith pair.closing.toList (text.drop k) = false :=
    fun k hk => startsWith_eq_false_of_lt_indexOf? fun j hj => Nat.lt_of_le_of_lt hk (hnearer j hj)
  rw [← behind_walk_inside ht, walk_inside_skip hle fun k hk =>
      ⟨hc k (Nat.le_of_lt hk), by rw [hbefore k hk, Bool.and_false]⟩,
    walk_inside_open (hc i (Nat.le_refl i)) hn hat, behind_behind, List.drop_drop]
  rfl

/-- The reader on its way to a closing delimiter. -/
theorem walk_inside_leave {j : Nat} (ht : text ≠ [])
    (hj : indexOf? pair.closing.toList text = some j)
    (hnearer : ∀ i, nestedOpening? l pair text = some i → j ≤ i) :
    walk l (.inside pair n) text = behind ⟨false, true⟩
      (walk l (.closed l pair n) (text.drop (j + pair.closing.toList.length))) := by
  obtain ⟨hle, hat, hbefore⟩ := indexOf?_eq_some_iff.1 hj
  rw [← behind_walk_inside ht, walk_inside_skip hle fun k hk =>
      ⟨hbefore k hk, nestedOpening?_before fun i hi => Nat.lt_of_lt_of_le hk (hnearer i hi)⟩,
    walk_inside_close hat, behind_behind, List.drop_drop]
  rfl

/-- The reader where no delimiter counts any more. -/
theorem walk_inside_rest (ht : text ≠ []) (hj : indexOf? pair.closing.toList text = none)
    (hi : nestedOpening? l pair text = none) :
    walk l (.inside pair n) text = (⟨false, true⟩, .inside pair n) := by
  rw [← behind_walk_inside ht, walk_inside_skip (Nat.le_refl _) fun k _ =>
    ⟨indexOf?_eq_none_iff.1 hj k, nestedOpening?_before (by simp [hi])⟩, List.drop_length, walk_nil]
  rfl

/-- Between delimiters: the jump to the nearer one, and the places up to it. -/
theorem scan_inside (ht : text ≠ [])
    (ih : ∀ (m : Mode) (rest : List Char), rest.length < text.length →
      scan l m.state rest = viewed (walk l m rest)) :
    scan l (Mode.inside pair n).state text = viewed (walk l (.inside pair n) text) := by
  have hdepth : (Mode.inside pair n).state.depth ≠ 0 := by
    show (n : Int) + 1 ≠ 0
    omega
  have hround : round l (Mode.inside pair n).state text =
      insideRound l (Mode.inside pair n).state pair text := if_neg hdepth
  rcases insideRound_cases l (Mode.inside pair n).state pair text with
    ⟨i, hi, hnearer, hinside⟩ | ⟨j, hj, hnearer, hinside⟩ | ⟨hi, hj, hinside⟩
  · rw [hinside, enterRound] at hround
    have hlater := ih (.inside pair (n + 1)) _ (round_rest_lt ht hround)
    rw [scan_of_next ht hround, walk_inside_enter ht hi hnearer, viewed_behind, ← hlater]
    rfl
  · rw [hinside, leaveRound, leave_state] at hround
    have hlater := ih (.closed l pair n) _ (round_rest_lt ht hround)
    rw [scan_of_next ht hround, walk_inside_leave ht hj hnearer, viewed_behind, ← hlater]
  · rw [hinside] at hround
    rw [scan_of_stop ht hround, walk_inside_rest ht hj hi]
    rfl

end Inside

/-- **Simulation.**  From the state of any mode, the scan sees what the reader sees and ends in the
    state of the mode in which the reader ends. -/
theorem scan_eq_walk (l : Language) (m : Mode) (text : List Char) :
    scan l m.state text = viewed (walk l m text) := by
  -- Both leave a shorter rest at every step, so the induction is on what is left of the line.
  induction hlen : text.length using Nat.strongRecOn generalizing m text with
  | ind n ih =>
    by_cases ht : text = []
    · rw [scan, dif_pos ht, ht, walk_nil]
      rfl
    · have ih' : ∀ (m : Mode) (rest : List Char), rest.length < text.length →
          scan l m.state rest = viewed (walk l m rest) :=
        fun m rest hrest => ih rest.length (hlen ▸ hrest) m rest rfl
      cases m with
      | outside => exact scan_outside ht ih'
      | inside pair further => exact scan_inside ht ih'

/-! ### Lines and files -/

/-- A mode is inside a block comment exactly if its state is. -/
theorem depth_state_eq_zero_iff (m : Mode) : m.state.depth = 0 ↔ m = .outside := by
  cases m with
  | outside => simp [Mode.state]
  | inside pair n =>
    have hne : ((n : Int) + 1) ≠ 0 := by omega
    simp [Mode.state, hne]

theorem inBlock_state (m : Mode) : m.state.inBlock = !decide (m = .outside) := by
  cases m with
  | outside => rfl
  | inside pair n =>
    have hpos : (0 : Int) < (n : Int) + 1 := by omega
    simp [Mode.state, State.inBlock, hpos]

/-- The classifier and the reader agree on a line. -/
theorem classify_eq_walkLine (l : Language) (exclude : Bool) (m : Mode) (line : List Char) :
    classify l exclude m.state line =
      ((walkLine l exclude m line).1, (walkLine l exclude m line).2.state) := by
  cases hblank : allBlank line with
  | true =>
    simp only [classify, walkLine, hblank, if_true, inBlock_state]
    by_cases hm : m = .outside <;> simp [hm]
  | false =>
    have hkind := (scan_meets l m.state hblank).kind_eq
    rw [scan_eq_walk] at hkind
    simp only [classify, walkLine, hblank, Bool.false_eq_true, if_false, scan_eq_walk,
      Bool.and_eq_true, decide_eq_true_eq, depth_state_eq_zero_iff, hkind]
    split <;> rfl

/-- The classifier and the reader agree on any lines that follow a mode. -/
theorem trace_eq_walkLines (l : Language) (exclude : Bool) (m : Mode) (lines : List (List Char)) :
    trace l exclude m.state lines =
      (walkLines l exclude m lines).map fun r => (r.1, r.2.state) := by
  induction lines generalizing m with
  | nil => rfl
  | cons line lines ih =>
    simp only [trace, walkLines, List.map_cons, classify_eq_walkLine, ih]

/-- **The classifier reads character by character.**  On every file it gives the kinds that the
    reader gives, and behind every line the depth and the delimiters of the reader's mode. -/
theorem traceFile_eq_walkLines (l : Language) (exclude : Bool) (lines : List String) :
    traceFile l exclude lines =
      (walkLines l exclude .outside (lines.map String.toList)).map fun r => (r.1, r.2.state) :=
  trace_eq_walkLines l exclude .outside (lines.map String.toList)

/-- Both comments on the line are closed before the code; the second opening is within the first. -/
example : (walkLine { slashLanguage "Rust" [] [] with nested := true } false .outside
    "/* a /* b */ c */ d /*".toList) = (.logical, .inside slashStar 0) := by
  decide +kernel

end LineCensus.Classifier
