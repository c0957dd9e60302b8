import LineCensus.Xml.Parser
import LineCensus.Proofs.Text.Search
import Mathlib.Data.List.TakeWhile

namespace LineCensus.Xml

open Text

/-!
# The text of an element read back

A written text is made of runs of ordinary characters and of references to the others, and each of
them takes the reader one step.

* `prepend` — what stands in an element behind some more text.
* `readContent_close`, `readContent_escape`, `readContent_run` — one step of the reader, at an end
  tag, at a reference and at a run.
* `readContent_text` — a text is read back if all its characters may stand in a document, and the
  reader stops otherwise.
-/

variable {d : Doctype} {opened : List (List Char)} {scope : Scope}

/-- What stands in an element, with some text in front of it. -/
def prepend (t : List Char) (p : (List Char × List Element) × List Char) :
    (List Char × List Element) × List Char :=
  ((t ++ p.1.1, p.1.2), p.2)

/-- Where the reader stops, it stops for good. -/
theorem failure_bind {α β : Type} (f : α → Reading β) : (failure : Reading α) >>= f = failure := rfl

/-- A failure stays one. -/
theorem map_failure {α β : Type} (f : α → β) : f <$> (failure : Reading α) = failure := rfl

/-! ### Single steps -/

/-- Content ends before an end tag. -/
theorem readContent_close (fuel : Nat) (r : List Char) :
    readContent d opened scope (fuel + 1) ('<' :: '/' :: r) =
      pure (([], []), '<' :: '/' :: r) := by
  rw [readContent]

/-- A character that is written as it is. -/
def isOrdinary (c : Char) : Bool := c != '&' && c != '<' && c != '>'

/-- An ordinary character stands for itself. -/
theorem writeChar_of_isOrdinary {c : Char} (h : isOrdinary c = true) : writeChar c = [c] := by
  simp only [isOrdinary, Bool.and_eq_true, bne_iff_ne] at h
  rw [writeChar, if_neg h.1.1, if_neg h.1.2, if_neg h.2]

/-- Only three characters are not ordinary. -/
theorem eq_of_isOrdinary_eq_false {c : Char} (h : isOrdinary c = false) :
    c = '&' ∨ c = '<' ∨ c = '>' := by
  simpa only [isOrdinary, Bool.and_eq_false_iff, bne_eq_false_iff_eq, or_assoc] using h

/-- A reference is read as the character that it was written for. -/
theorem readContent_escape {c : Char} (h : isOrdinary c = false) (fuel : Nat) (r : List Char) :
    readContent d opened scope (fuel + 1) (writeChar c ++ r) =
      prepend [c] <$> readContent d opened scope fuel r := by
  rcases eq_of_isOrdinary_eq_false h with rfl | rfl | rfl
  · have href : readReference? ("amp;".toList ++ r) = some (.char '&', r) := rfl
    show readContent d opened scope (fuel + 1) ('&' :: ("amp;".toList ++ r)) = _
    rw [readContent, href]
    rfl
  · have href : readReference? ("lt;".toList ++ r) = some (.char '<', r) := rfl
    show readContent d opened scope (fuel + 1) ('&' :: ("lt;".toList ++ r)) = _
    rw [readContent, href]
    rfl
  · have href : readReference? ("gt;".toList ++ r) = some (.char '>', r) := rfl
    show readContent d opened scope (fuel + 1) ('&' :: ("gt;".toList ++ r)) = _
    rw [readContent, href]
    rfl

/-- The text goes on with markup. -/
def EndsRun (s : List Char) : Prop := ∀ c ∈ s.head?, isPlain c = false

/-- An ordinary character is read as it stands. -/
theorem isPlain_of_isOrdinary {c : Char} (h : isOrdinary c = true) : isPlain c = true := by
  simp only [isOrdinary, Bool.and_eq_true, bne_iff_ne] at h
  simp only [isPlain, Bool.and_eq_true, bne_iff_ne]
  exact ⟨h.1.2, h.1.1⟩

/-- The end of a marked section has a character that is not written as it is. -/
theorem indexOf?_sectionEnd {run : List Char} (h : ∀ c ∈ run, isOrdinary c = true) :
    indexOf? "]]>".toList run = none := by
  rw [indexOf?_eq_none_iff]
  intro k
  rw [← Bool.not_eq_true, startsWith_iff]
  intro hsection
  have hmem : '>' ∈ run := List.mem_of_mem_drop (hsection.subset (by decide))
  exact absurd (h '>' hmem) (by decide)

/-- A run of ordinary characters is read to its end. -/
theorem takeWhile_isPlain {run s : List Char} (hrun : ∀ c ∈ run, isOrdinary c = true)
    (hs : EndsRun s) : (run ++ s).takeWhile isPlain = run := by
  rw [List.takeWhile_append_of_pos fun c hc => isPlain_of_isOrdinary (hrun c hc)]
  cases s with
  | nil => exact List.append_nil run
  | cons c s =>
    rw [List.takeWhile_cons_of_neg (by rw [hs c rfl]; decide), List.append_nil]

/-- It is not read beyond its end. -/
theorem dropWhile_isPlain {run s : List Char} (hrun : ∀ c ∈ run, isOrdinary c = true)
    (hs : EndsRun s) : (run ++ s).dropWhile isPlain = s := by
  rw [List.dropWhile_append_of_pos fun c hc => isPlain_of_isOrdinary (hrun c hc)]
  cases s with
  | nil => rfl
  | cons c s => exact List.dropWhile_cons_of_neg (by rw [hs c rfl]; decide)

/-- A run of ordinary characters is read up to the markup behind it. -/
theorem readContent_run {run : List Char} (hne : run ≠ [])
    (hrun : ∀ c ∈ run, isOrdinary c = true) {s : List Char} (hs : EndsRun s) (fuel : Nat) :
    readContent d opened scope (fuel + 1) (run ++ s) =
      if run.all isChar then prepend run <$> readContent d opened scope fuel s else failure := by
  obtain ⟨c, t, rfl⟩ := List.exists_cons_of_ne_nil hne
  have hc := hrun c List.mem_cons_self
  simp only [isOrdinary, Bool.and_eq_true, bne_iff_ne] at hc
  have hsection := indexOf?_sectionEnd hrun
  have htake := takeWhile_isPlain hrun hs
  have hdrop := dropWhile_isPlain hrun hs
  rw [List.cons_append] at htake hdrop ⊢
  rw [readContent]
  -- The run is taken whole, and it has no end of a marked section in it.
  · rw [htake, hdrop, hsection]
    by_cases hall : (c :: t).all isChar = true
    · simp only [hall]
      rfl
    · simp only [hall]
      rfl
  all_goals
    intros
    simp_all

/-! ### Texts -/

/-- It is written as it stands. -/
theorem flatMap_writeChar {run : List Char} (h : ∀ c ∈ run, isOrdinary c = true) :
    run.flatMap writeChar = run := by
  induction run with
  | nil => rfl
  | cons c run ih =>
    rw [List.flatMap_cons, writeChar_of_isOrdinary (h c List.mem_cons_self),
      ih fun d hd => h d (List.mem_cons_of_mem c hd), List.singleton_append]

/-- Every character is written with one at least. -/
theorem length_writeChar_pos (c : Char) : 0 < (writeChar c).length := by
  by_cases h : isOrdinary c = true
  · rw [writeChar_of_isOrdinary h]
    exact Nat.one_pos
  · rcases eq_of_isOrdinary_eq_false (by simpa using h) with rfl | rfl | rfl <;> decide

/-- A reference begins with an ampersand. -/
theorem endsRun_writeChar {c : Char} (h : isOrdinary c = false) (s : List Char) :
    EndsRun (writeChar c ++ s) := by
  rcases eq_of_isOrdinary_eq_false h with rfl | rfl | rfl <;>
    · intro c hc
      cases hc
      rfl

/-- The other characters may stand in a document. -/
theorem isChar_of_isOrdinary_eq_false {c : Char} (h : isOrdinary c = false) : isChar c = true := by
  rcases eq_of_isOrdinary_eq_false h with rfl | rfl | rfl <;> rfl

/-- A text is a run of ordinary characters and what is left behind it. -/
theorem exists_run (t : List Char) : ∃ run s, t = run ++ s ∧
    (∀ c ∈ run, isOrdinary c = true) ∧ ∀ c ∈ s.head?, isOrdinary c = false := by
  refine ⟨t.takeWhile isOrdinary, t.dropWhile isOrdinary, ?_, ?_, ?_⟩
  · exact List.takeWhile_append_dropWhile.symm
  · exact fun c hc => List.mem_takeWhile_imp hc
  · intro c hc
    have h := List.head?_dropWhile_not isOrdinary t
    rw [Option.mem_def.1 hc] at h
    simpa using h

/-- A text that does not begin with an ordinary character ends a run. -/
theorem endsRun_flatMap_writeChar {s : List Char} (h : ∀ c ∈ s.head?, isOrdinary c = false)
    (rest : List Char) : EndsRun (s.flatMap writeChar ++ '<' :: '/' :: rest) := by
  cases s with
  | nil =>
    intro c hc
    cases hc
    rfl
  | cons c s =>
    rw [List.flatMap_cons, List.append_assoc]
    exact endsRun_writeChar (h c rfl) _

/-- **Texts are read back.**  The text of an element is read up to the end tag if all its characters
    may stand in a document; the reader stops at one that may not. -/
theorem readContent_text (t : List Char) (rest : List Char) (fuel : Nat)
    (hfuel : (t.flatMap writeChar).length < fuel) :
    readContent d opened scope fuel (t.flatMap writeChar ++ '<' :: '/' :: rest) =
      if t.all isChar then pure ((t, []), '<' :: '/' :: rest) else failure := by
  -- By induction on the length: a run of ordinary characters or one other takes a step.
  induction hn : t.length using Nat.strong_induction_on generalizing t fuel with
  | _ n ih =>
    obtain ⟨fuel, rfl⟩ : ∃ f, fuel = f + 1 := ⟨fuel - 1, by omega⟩
    obtain ⟨run, s, rfl, hrun, hs⟩ := exists_run t
    rw [List.length_append] at hn
    by_cases hne : run = []
    · subst hne
      cases s with
      | nil => exact readContent_close fuel rest
      | cons c s =>
        have hc : isOrdinary c = false := hs c rfl
        have hpos := length_writeChar_pos c
        rw [List.nil_append, List.flatMap_cons, List.length_append] at hfuel
        rw [List.length_cons] at hn
        have hrest := ih s.length (by omega) s fuel (by omega) rfl
        rw [List.nil_append, List.flatMap_cons, List.append_assoc, readContent_escape hc, hrest,
          List.all_cons, isChar_of_isOrdinary_eq_false hc, Bool.true_and]
        cases s.all isChar <;> rfl
    · have hpos := List.length_pos_iff.2 hne
      rw [List.flatMap_append, flatMap_writeChar hrun] at hfuel ⊢
      rw [List.length_append] at hfuel
      have hrest := ih s.length (by omega) s fuel (by omega) rfl
      rw [List.append_assoc, readContent_run hne hrun (endsRun_flatMap_writeChar hs rest), hrest,
        List.all_append]
      cases run.all isChar <;> cases s.all isChar <;> rfl

end LineCensus.Xml
