import LineCensus.Proofs.Classifier.States
import Mathlib.Data.List.Infix

namespace LineCensus.Classifier

open Text

/-!
# Depth is nesting depth

Where comments nest, a text between delimiters is made up of opening ones, of closing ones and of
other characters, and the depth that the classifier keeps is the balance of the former two:

* `Apart` — delimiters that a reader can tell apart.
* `Part`, `spell` — the parts of a text, and the text that they make up.
* `balance`, `StaysOpen`, `Sustained` — the depth that parts lead to; it falls to 0 at the very end
  at most.
* `scan_part` — the scan passes over one part at a time.  Delimiters may share characters, and next
  to each other they may seem to hold further ones; a scan that starts at a part never sees those.
* `scan_spell`, `classify_spell` — a line of parts is a comment, and its balance is the depth
  behind it.
* `trace_spell` — so are lines of parts.
-/

/-- Delimiters with a character that is not blank, neither of which begins with the other. -/
structure Apart (pair : Delimiters) : Prop where
  opening_blank : allBlank pair.opening.toList = false
  closing_blank : allBlank pair.closing.toList = false
  opening_prefix : ¬ pair.opening.toList <+: pair.closing.toList
  closing_prefix : ¬ pair.closing.toList <+: pair.opening.toList

/-- A part of the text between delimiters: one of the two, or a character that is in neither. -/
inductive Part (pair : Delimiters) where
  | opening
  | closing
  | filler (c : Char) (fresh : c ∉ pair.opening.toList ∧ c ∉ pair.closing.toList)
  deriving DecidableEq

section Parts

variable {pair : Delimiters}

/-- The characters of a part. -/
def Part.text : Part pair → List Char
  | .opening => pair.opening.toList
  | .closing => pair.closing.toList
  | .filler c _ => [c]

/-- The text of parts in a row. -/
def spell (parts : List (Part pair)) : List Char := parts.flatMap Part.text

/-- How far a part changes the depth. -/
def Part.change : Part pair → Int
  | .opening => 1
  | .closing => -1
  | .filler _ _ => 0

/-- The depth behind some parts: what opens is added and what closes is taken off. -/
def balance (depth : Int) (parts : List (Part pair)) : Int :=
  depth + parts.count .opening - parts.count .closing

/-- The balance is at least 1 wherever a part follows. -/
def StaysOpen (depth : Int) (parts : List (Part pair)) : Prop :=
  ∀ done, done <+: parts → done ≠ parts → 1 ≤ balance depth done

/-- The balance is at least 1 wherever a part or a line follows.  Only the last part of the last
    line can bring it to 0. -/
structure Sustained (depth : Int) (lines : List (List (Part pair))) : Prop where
  part : StaysOpen depth lines.flatten
  line : ∀ done, done <+: lines → done ≠ lines → 1 ≤ balance depth done.flatten

@[simp] theorem balance_nil (depth : Int) : balance depth ([] : List (Part pair)) = depth := by
  simp [balance]

@[simp] theorem balance_cons (depth : Int) (p : Part pair) (parts : List (Part pair)) :
    balance depth (p :: parts) = balance (depth + p.change) parts := by
  cases p <;> simp [balance, Part.change] <;> omega

/-- The depth behind two runs of parts is that behind the second, begun at that behind the first. -/
theorem balance_append (depth : Int) (parts more : List (Part pair)) :
    balance depth (parts ++ more) = balance (balance depth parts) more := by
  simp only [balance, List.count_append]
  omega

@[simp] theorem spell_nil : spell ([] : List (Part pair)) = [] := rfl

@[simp] theorem spell_cons (p : Part pair) (parts : List (Part pair)) :
    spell (p :: parts) = p.text ++ spell parts := rfl

section Sequences

variable {depth : Int} {p : Part pair} {parts line : List (Part pair)}
  {lines : List (List (Part pair))}

/-- A comment that stays open is open. -/
theorem StaysOpen.one_le (h : StaysOpen depth (p :: parts)) : 1 ≤ depth := by
  simpa using h [] List.nil_prefix (List.cons_ne_nil p parts).symm

/-- It stays open behind its first part. -/
theorem StaysOpen.tail (h : StaysOpen depth (p :: parts)) :
    StaysOpen (depth + p.change) parts := by
  intro done hdone hne
  rw [← balance_cons]
  exact h (p :: done) (List.cons_prefix_cons.2 ⟨rfl, hdone⟩) fun heq => hne (List.cons.inj heq).2

/-- A comment that lines sustain is open. -/
theorem Sustained.one_le (h : Sustained depth (line :: lines)) : 1 ≤ depth := by
  simpa using h.line [] List.nil_prefix (List.cons_ne_nil line lines).symm

/-- What is followed by a part of its line is followed by a part of all lines. -/
theorem Sustained.head (h : Sustained depth (line :: lines)) : StaysOpen depth line := by
  intro done hdone hne
  refine h.part done (hdone.trans (List.prefix_append line lines.flatten)) fun heq => ?_
  have hlength := congrArg List.length heq
  rw [List.flatten_cons, List.length_append] at hlength
  exact hne (hdone.eq_of_length_le (by omega))

/-- It is sustained by the lines behind the first. -/
theorem Sustained.tail (h : Sustained depth (line :: lines)) :
    Sustained (balance depth line) lines where
  part := by
    intro done hdone hne
    rw [← balance_append]
    exact h.part (line ++ done) ((List.prefix_append_right_inj line).2 hdone)
      fun heq => hne (List.append_cancel_left heq)
  line := by
    intro done hdone hne
    rw [← balance_append]
    exact h.line (line :: done) (List.cons_prefix_cons.2 ⟨rfl, hdone⟩)
      fun heq => hne (List.cons.inj heq).2

end Sequences

end Parts

/-! ### One part -/

section Scans

variable {l : Language} {pair : Delimiters}

/-- What the scan of a line comes to when it passes over some text first. -/
theorem scan_eq_of_walk {m n : Mode} {seen : Seen} {text rest : List Char}
    (h : walk l m text = behind seen (walk l n rest)) :
    scan l m.state text = (seen.or (scan l n.state rest).1, (scan l n.state rest).2) := by
  rw [scan_eq_walk, h, viewed_behind, scan_eq_walk]

/-- Blocks that nest are closed one by one. -/
theorem state_closed (hn : l.nests pair = true) (n : Nat) :
    (Mode.closed l pair n).state = State.within pair n := by
  cases n with
  | zero => rfl
  | succ n =>
    rw [Mode.closed, if_pos hn, State.within_of_ne pair (by omega)]
    simp [Mode.state]

/-- Inside a comment one level more is open than the mode counts. -/
theorem state_inside (n : Nat) : (Mode.inside pair n).state = State.within pair (n + 1) := by
  rw [State.within_of_ne pair (by omega)]
  rfl

/-- **One part.**  Between delimiters that nest, the scan passes over the part that stands first,
    and the depth changes by it. -/
theorem scan_part (hn : l.nests pair = true) (ha : Apart pair) {depth : Int} (hd : 1 ≤ depth)
    (p : Part pair) (rest : List Char) :
    scan l (State.within pair depth) (p.text ++ rest) =
      ((Seen.mk false true).or (scan l (State.within pair (depth + p.change)) rest).1,
        (scan l (State.within pair (depth + p.change)) rest).2) := by
  obtain ⟨n, rfl⟩ : ∃ n : Nat, depth = n + 1 := ⟨(depth - 1).toNat, by omega⟩
  rw [← state_inside]
  -- At the front of a part no delimiter but itself begins, whatever its characters would begin.
  cases p with
  | opening =>
    have hclosing := startsWith_append_of_not_prefix ha.opening_prefix ha.closing_prefix rest
    have hwalk := walk_inside_open (n := n) hclosing hn (startsWith_append_self _ rest)
    rw [List.drop_left] at hwalk
    have hscan := scan_eq_of_walk hwalk
    rw [state_inside (n + 1)] at hscan
    simpa [Part.text, Part.change] using hscan
  | closing =>
    have hwalk := walk_inside_close (l := l) (n := n)
      (startsWith_append_self pair.closing.toList rest)
    rw [List.drop_left] at hwalk
    have hscan := scan_eq_of_walk hwalk
    rw [state_closed hn] at hscan
    have hdepth : (n : Int) + 1 + Part.change (.closing : Part pair) = n := by
      rw [Part.change]
      omega
    rw [hdepth]
    exact hscan
  | filler c fresh =>
    have hopening := startsWith_cons_of_not_mem (mt String.toList_eq_nil_iff.1 pair.opening_ne)
      fresh.1 rest
    have hclosing := startsWith_cons_of_not_mem (mt String.toList_eq_nil_iff.1 pair.closing_ne)
      fresh.2 rest
    have hwalk : walk l (.inside pair n) (c :: rest) =
        behind ⟨false, true⟩ (walk l (.inside pair n) rest) := by
      rw [walk, hclosing, hopening, Bool.and_false]
      rfl
    have hscan := scan_eq_of_walk hwalk
    rw [state_inside] at hscan
    simpa [Part.text, Part.change, state_inside] using hscan

end Scans

/-! ### Lines of parts -/

section Lines

variable {l : Language} {pair : Delimiters}

/-- The scan of a line of parts sees comments only, and ends at their balance. -/
theorem scan_spell (hn : l.nests pair = true) (ha : Apart pair) {depth : Int}
    {parts : List (Part pair)} (h : StaysOpen depth parts) :
    scan l (State.within pair depth) (spell parts) =
      (⟨false, !parts.isEmpty⟩, State.within pair (balance depth parts)) := by
  induction parts generalizing depth with
  | nil =>
    rw [spell_nil, scan, dif_pos rfl, balance_nil]
    rfl
  | cons p parts ih =>
    rw [spell_cons, scan_part hn ha h.one_le, ih h.tail, balance_cons]
    rfl

/-- A blank line of parts has no delimiters. -/
theorem balance_of_blank (ha : Apart pair) {parts : List (Part pair)}
    (h : allBlank (spell parts) = true) (depth : Int) : balance depth parts = depth := by
  induction parts generalizing depth with
  | nil => exact balance_nil depth
  | cons p parts ih =>
    rw [spell_cons, allBlank, List.all_append, Bool.and_eq_true] at h
    rw [balance_cons, ih h.2]
    cases p with
    | opening => exact absurd h.1 (Bool.eq_false_iff.1 ha.opening_blank)
    | closing => exact absurd h.1 (Bool.eq_false_iff.1 ha.closing_blank)
    | filler c fresh => exact Int.add_zero depth

/-- A line of parts is a comment, and the state behind it is that at its balance. -/
theorem classify_spell (hn : l.nests pair = true) (ha : Apart pair) (exclude : Bool) {depth : Int}
    (hd : 1 ≤ depth) {parts : List (Part pair)} (h : StaysOpen depth parts) :
    classify l exclude (State.within pair depth) (spell parts) =
      (.comment, State.within pair (balance depth parts)) := by
  have hdepth : (State.within pair depth).depth ≠ 0 := by
    show depth ≠ 0
    omega
  have hin : (State.within pair depth).inBlock = true := decide_eq_true (show 0 < depth by omega)
  rw [classify, scan_spell hn ha h]
  -- A blank line is not scanned, and need not be, for it has no delimiters.
  cases hblank : allBlank (spell parts) with
  | true => rw [balance_of_blank ha hblank, if_pos rfl, if_pos hin]
  | false =>
    cases parts with
    | nil => cases hblank
    | cons p parts => simp [hdepth, Seen.kind]

/-! ### Sequences of lines -/

/-- The state at the end is the one behind the last line. -/
theorem finalState_cons (s : State) (r : LineKind × State) (steps : List (LineKind × State)) :
    finalState s (r :: steps) = finalState r.2 steps := by
  rw [finalState, finalState, List.getLast?_cons]
  cases steps.getLast? <;> rfl

/-- Lines of parts are comments, line by line, and the last state is that at their balance. -/
theorem trace_within (hn : l.nests pair = true) (ha : Apart pair) (exclude : Bool)
    {lines : List (List (Part pair))} {depth : Int} (h : Sustained depth lines) :
    (∀ r ∈ trace l exclude (State.within pair depth) (lines.map spell), r.1 = .comment) ∧
      finalState (State.within pair depth)
        (trace l exclude (State.within pair depth) (lines.map spell)) =
          State.within pair (balance depth lines.flatten) := by
  -- The depth behind a line is that in front of the next one, so the induction is for any depth.
  induction lines generalizing depth with
  | nil =>
    refine ⟨fun r hr => absurd hr List.not_mem_nil, ?_⟩
    rw [List.flatten_nil, balance_nil]
    rfl
  | cons line lines ih =>
    obtain ⟨hcomment, hfinal⟩ := ih h.tail
    have hline := classify_spell hn ha exclude h.one_le h.head
    rw [List.map_cons, trace, hline]
    constructor
    · intro r hr
      rcases List.mem_cons.1 hr with rfl | hlater
      · rfl
      · exact hcomment r hlater
    · rw [finalState_cons, hfinal, List.flatten_cons, balance_append]

/-- **Depth is nesting depth.**  From any depth of at least 1 on, between delimiters that nest and
    can be told apart, lines of such delimiters and of other characters are comments up to a last
    delimiter that closes the outermost block, and the depth behind them is what was opened less
    what was closed, wherever lines end. -/
theorem trace_spell (hnested : l.nested = true) (ha : Apart pair) (exclude : Bool) {depth : Int}
    (hd : 1 ≤ depth) {lines : List (List (Part pair))} (h : Sustained depth lines) :
    let steps := trace l exclude ⟨depth, some pair⟩ (lines.map spell)
    (∀ r ∈ steps, r.1 = .comment) ∧
      finalState ⟨depth, some pair⟩ steps = State.within pair
        (depth + lines.flatten.count .opening - lines.flatten.count .closing) := by
  have hn : l.nests pair = true :=
    nests_iff.2 ⟨hnested, fun heq => ha.opening_prefix (heq ▸ List.prefix_refl _)⟩
  rw [← State.within_of_ne pair (by omega : depth ≠ 0)]
  exact trace_within hn ha exclude h

/-- `trace_spell` for `/**//*a`, an empty line, and `*/*/`, which seem to hold further delimiters
    where two of them meet. -/
theorem trace_spell_overlapping :
    let rust : Language := { slashLanguage "Rust" ["rust"] ["rs"] with nested := true }
    let lines : List (List (Part slashStar)) :=
      [[.opening, .closing, .opening, .filler 'a' (by decide)], [], [.closing, .closing]]
    (rust.nested = true ∧ Apart slashStar ∧ Sustained 1 lines) ∧
      lines.map spell = ["/**//*a".toList, [], "*/*/".toList] ∧
      (let steps := trace rust false ⟨1, some slashStar⟩ (lines.map spell)
       (∀ r ∈ steps, r.1 = .comment) ∧
         finalState ⟨1, some slashStar⟩ steps = State.within slashStar 0) := by
  intro rust lines
  have hapart : Apart slashStar := ⟨by decide, by decide, by decide, by decide⟩
  have hparts : ∀ done ∈ lines.flatten.inits, done ≠ lines.flatten → 1 ≤ balance 1 done := by
    decide
  have hlines : ∀ done ∈ lines.inits, done ≠ lines → 1 ≤ balance 1 done.flatten := by decide
  have hsustained : Sustained 1 lines :=
    ⟨fun done h => hparts done ((List.mem_inits _ _).2 h),
      fun done h => hlines done ((List.mem_inits _ _).2 h)⟩
  exact ⟨⟨rfl, hapart, hsustained⟩, by decide,
    trace_spell rfl hapart false (Int.le_refl 1) hsustained⟩

end Lines

end LineCensus.Classifier
