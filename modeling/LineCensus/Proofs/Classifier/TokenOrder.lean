import LineCensus.Proofs.Classifier.Walk
import Mathlib.Data.List.Nodup

namespace LineCensus.Classifier

open Text

/-!
# The order of tokens

The search for the next opening goes through the tokens of a language in the order in which they are
listed.  That order does not show if no two openings are the same text:

* `Reordered` — two languages with the same tokens, listed in any order.
* `Preferred.unique` — the first opening of a text, and the longest there, is one only.
* `nextOpening?_perm` — so the search finds the same in any order.
* `round_congr`, `scan_congr`, `classify_congr`, `trace_congr` — rounds, lines and sequences of
  lines use the listed tokens for that search alone.
* `traceFile_reordered` — kinds, states and counts of a file are the same.
-/

/-- The two languages list the same tokens, in any order, and use them in the same way. -/
structure Reordered (l m : Language) : Prop where
  name : l.name = m.name
  lineComments : l.lineComments.Perm m.lineComments
  blockComments : l.blockComments.Perm m.blockComments
  nested : l.nested = m.nested
  directiveMark : l.directiveMark = m.directiveMark

/-- The texts that open comments: line comments first. -/
def openingTexts (l : Language) : List String := l.lineComments ++ l.blockComments.map (·.opening)

/-! ### The search -/

theorem map_token_openings (l : Language) :
    (openings l).map Opening.token = (openingTexts l).map String.toList := by
  simp only [openings, openingTexts, List.map_append, List.map_map]
  rfl

/-- If no two openings are the same text, an opening is known by its characters. -/
theorem eq_of_token_eq {l : Language} (h : (openingTexts l).Nodup) {o p : Opening}
    (ho : o ∈ openings l) (hp : p ∈ openings l) (heq : o.token = p.token) : o = p := by
  have hnodup : ((openings l).map Opening.token).Nodup := by
    rw [map_token_openings]
    exact h.map fun _ _ => String.toList_inj.1
  exact List.inj_on_of_nodup_map hnodup ho hp heq

theorem Reordered.perm_openings {l m : Language} (h : Reordered l m) :
    (openings l).Perm (openings m) :=
  (h.lineComments.map Opening.line).append (h.blockComments.map Opening.block)

/-- Two searches among the same candidates come to the same, if a candidate is known by its
    characters. -/
theorem Preferred.unique {candidates others : List Opening} {text : List Char}
    {found found' : Option (Nat × Opening)} (hsame : ∀ o, o ∈ candidates ↔ o ∈ others)
    (hinj : ∀ o ∈ candidates, ∀ p ∈ candidates, o.token = p.token → o = p)
    (h : Preferred candidates text found) (h' : Preferred others text found') :
    found = found' := by
  cases found with
  | none =>
    cases found' with
    | none => rfl
    | some held =>
      obtain ⟨hmem, hindex⟩ := h'.found
      rw [h _ ((hsame _).2 hmem)] at hindex
      cases hindex
  | some held =>
    obtain ⟨i, o⟩ := held
    obtain ⟨hmem, hi⟩ := h.found
    cases found' with
    | none =>
      rw [h' _ ((hsame o).1 hmem)] at hi
      cases hi
    | some held' =>
      obtain ⟨j, p⟩ := held'
      obtain ⟨hmem', hj⟩ := h'.found
      have hle := h.le ((hsame p).2 hmem') hj
      have hge := h'.le ((hsame o).1 hmem) hi
      -- Neither comes first and neither is longer, so both are the same part of the text.
      obtain ⟨rfl, hlength⟩ : i = j ∧ o.token.length = p.token.length := by omega
      have ho := startsWith_iff.1 (indexOf?_eq_some_iff.1 hi).2.1
      have hp := startsWith_iff.1 (indexOf?_eq_some_iff.1 hj).2.1
      have htoken : o.token = p.token :=
        (List.prefix_of_prefix_length_le ho hp (Nat.le_of_eq hlength)).eq_of_length hlength
      rw [hinj o hmem p ((hsame p).2 hmem') htoken]

/-- The search finds the same opening in any order of distinct tokens. -/
theorem nextOpening?_perm {l m : Language} (h : Reordered l m) (hd : (openingTexts l).Nodup)
    (text : List Char) : nextOpening? (openings l) text = nextOpening? (openings m) text :=
  Preferred.unique (fun _ => h.perm_openings.mem_iff)
    (fun _ ho _ hp heq => eq_of_token_eq hd ho hp heq)
    (preferred_nextOpening? (openings l) text) (preferred_nextOpening? (openings m) text)

/-! ### Lines and files -/

section Congruence

variable {l m : Language}

/-- A round uses the listed tokens only to search for the next opening. -/
theorem round_congr
    (hopen : ∀ text, nextOpening? (openings l) text = nextOpening? (openings m) text)
    (hnested : l.nested = m.nested) (s : State) (text : List Char) :
    round l s text = round m s text := by
  have hnests : l.nests = m.nests := by
    funext pair
    rw [Language.nests, Language.nests, hnested]
  have houtside : outsideRound l text = outsideRound m text := by
    rw [outsideRound, outsideRound, hopen]
  have hinside (pair : Delimiters) : insideRound l s pair text = insideRound m s pair text := by
    simp only [insideRound, nestedOpening?, leaveRound, State.leave, hnests]
  simp only [round, houtside, hinside]

/-- The scan of a line is the sequence of its rounds. -/
theorem scan_congr (hround : ∀ s text, round l s text = round m s text) (s : State)
    (text : List Char) : scan l s text = scan m s text := by
  fun_induction scan l s text with
  | case1 s => rw [scan, dif_pos rfl]
  | case2 s text ht seen hstop => rw [scan_of_stop ht (hround s text ▸ hstop)]
  | case3 s text ht seen state rest hnext _ later ih =>
    rw [scan_of_next ht (hround s text ▸ hnext), ← ih]

theorem classify_congr (hscan : ∀ s text, scan l s text = scan m s text)
    (hmark : l.directiveMark = m.directiveMark) (exclude : Bool) (s : State) (line : List Char) :
    classify l exclude s line = classify m exclude s line := by
  have hdirective : isDirective l line = isDirective m line := by
    rw [isDirective, isDirective, hmark]
  rw [classify, classify, hscan, hdirective]

theorem trace_congr {exclude : Bool}
    (hclassify : ∀ s line, classify l exclude s line = classify m exclude s line) (s : State)
    (lines : List (List Char)) : trace l exclude s lines = trace m exclude s lines := by
  induction lines generalizing s with
  | nil => rfl
  | cons line lines ih => simp only [trace, hclassify, ih]

end Congruence

/-- **Order does not show.**  Two languages that list the same tokens, no two openings alike, give
    every line of a file the same kind and the same state behind it, and the file the same
    counts. -/
theorem traceFile_reordered {l m : Language} (h : Reordered l m) (hd : (openingTexts l).Nodup)
    (exclude : Bool) (path : String) (lines : List String) :
    traceFile l exclude lines = traceFile m exclude lines ∧
      tallyFile path l exclude lines = tallyFile path m exclude lines := by
  have hround := round_congr (nextOpening?_perm h hd) h.nested
  have htrace : traceFile l exclude lines = traceFile m exclude lines :=
    trace_congr (classify_congr (scan_congr hround) h.directiveMark exclude) _ _
  refine ⟨htrace, ?_⟩
  simp only [tallyFile, htrace, h.name]

/-- `traceFile_reordered` for four openings that begin alike. -/
theorem traceFile_reordered_prefixes :
    let long : Delimiters := { opening := "--[[", closing := "]]" }
    let short : Delimiters := { opening := "--[", closing := "]" }
    let lua : Language :=
      { name := "Lua", lineComments := ["--", "---"], blockComments := [short, long] }
    let turned : Language :=
      { name := "Lua", lineComments := ["---", "--"], blockComments := [long, short] }
    let lines := ["x --[[ a", "b ] ]] y", "--[ c ] --- d", "-"]
    (Reordered lua turned ∧ (openingTexts lua).Nodup) ∧
      traceFile lua false lines = traceFile turned false lines ∧
      tallyFile "init.lua" lua false lines = tallyFile "init.lua" turned false lines := by
  intro long short lua turned lines
  have hreordered : Reordered lua turned :=
    ⟨rfl, .swap "---" "--" [], .swap long short [], rfl, rfl⟩
  have hdistinct : (openingTexts lua).Nodup := by decide
  exact ⟨⟨hreordered, hdistinct⟩, traceFile_reordered hreordered hdistinct false "init.lua" lines⟩

/-- Of two openings that are the same text the first listed counts. -/
example :
    let star : Delimiters := { opening := "(*", closing := "*)" }
    let bar : Delimiters := { opening := "(*", closing := "|)" }
    traceFile { name := "A", blockComments := [star, bar] } false ["(* a |)"] ≠
      traceFile { name := "A", blockComments := [bar, star] } false ["(* a |)"] := by
  decide +kernel

end LineCensus.Classifier
