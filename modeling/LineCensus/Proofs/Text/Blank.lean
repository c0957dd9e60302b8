import LineCensus.Text.Blank
import Mathlib.Data.List.TakeWhile

namespace LineCensus.Text

/-!
# Blanks at the ends

* `Tight` — a text that neither begins nor ends with a character of a class.
* `tight_trim`, `exists_trim` — what is left has no blanks at its ends, and all else is blank.
* `trim_append` — what is left is known by that: it is the tight text in the middle.
-/

variable {p : Char → Bool}

/-- The text neither begins nor ends with a character of class `p`. -/
structure Tight (p : Char → Bool) (s : List Char) : Prop where
  head : ∀ c ∈ s.head?, p c = false
  last : ∀ c ∈ s.getLast?, p c = false

/-- A text is tight if none of its characters is of the class. -/
theorem tight_of_forall {s : List Char} (h : ∀ c ∈ s, p c = false) : Tight p s :=
  ⟨fun c hc => h c (List.mem_of_mem_head? hc), fun c hc => h c (List.mem_of_getLast? hc)⟩

theorem dropWhile_of_tight {s : List Char} (h : Tight p s) : s.dropWhile p = s := by
  cases s with
  | nil => rfl
  | cons c s => rw [List.dropWhile_cons, h.head c rfl, if_neg Bool.false_ne_true]

theorem Tight.reverse {s : List Char} (h : Tight p s) : Tight p s.reverse :=
  ⟨by simpa using h.last, by simpa using h.head⟩

/-- **What is left.**  Of a tight text between blanks, trimming leaves the tight text. -/
theorem trim_append {front s back : List Char} (hfront : ∀ c ∈ front, isBlank c = true)
    (h : Tight isBlank s) (hback : ∀ c ∈ back, isBlank c = true) :
    trim (front ++ s ++ back) = s := by
  rw [trim, trimBy, List.append_assoc, List.dropWhile_append_of_pos hfront]
  cases s with
  | nil =>
    have hnone : back.dropWhile isBlank = [] := List.dropWhile_eq_nil_iff.2 hback
    rw [List.nil_append, hnone]
    rfl
  | cons c s =>
    have hhead : (c :: s ++ back).dropWhile isBlank = c :: s ++ back := by
      rw [List.cons_append, List.dropWhile_cons, h.head c rfl, if_neg Bool.false_ne_true]
    rw [hhead, List.reverse_append,
      List.dropWhile_append_of_pos fun c hc => hback c (List.mem_reverse.1 hc),
      dropWhile_of_tight h.reverse, List.reverse_reverse]

/-- A tight text is left as it is. -/
theorem trim_of_tight {s : List Char} (h : Tight isBlank s) : trim s = s := by
  have hall := trim_append (List.forall_mem_nil _) h (List.forall_mem_nil _)
  simpa using hall

/-- No blanks are left at the ends. -/
theorem tight_trim (s : List Char) : Tight isBlank (trim s) := by
  -- What is left is behind the first blanks, and it is read backwards for the last ones.
  have hprefix : trim s <+: s.dropWhile isBlank := by
    rw [trim, trimBy, ← List.reverse_suffix, List.reverse_reverse]
    exact List.dropWhile_suffix _
  constructor
  · intro c hc
    obtain ⟨rest, hrest⟩ := hprefix
    have hnot := List.head?_dropWhile_not isBlank s
    rw [← hrest, List.head?_append, hc] at hnot
    exact hnot
  · intro c hc
    rw [trim, trimBy, List.getLast?_reverse] at hc
    have hnot := List.head?_dropWhile_not isBlank (s.dropWhile isBlank).reverse
    rw [hc] at hnot
    exact hnot

/-- **What is trimmed away.**  It stands at the two ends, and all of it is blank. -/
theorem exists_trim (s : List Char) :
    ∃ back, s = s.takeWhile isBlank ++ trim s ++ back ∧ ∀ c ∈ back, isBlank c = true := by
  have hrest : s.dropWhile isBlank =
      trim s ++ ((s.dropWhile isBlank).reverse.takeWhile isBlank).reverse := by
    rw [trim, trimBy, ← List.reverse_append, List.takeWhile_append_dropWhile, List.reverse_reverse]
  refine ⟨((s.dropWhile isBlank).reverse.takeWhile isBlank).reverse, ?_, fun c hc => ?_⟩
  · rw [List.append_assoc, ← hrest, List.takeWhile_append_dropWhile]
  · exact List.mem_takeWhile_imp (List.mem_reverse.1 hc)

/-- Something is left of a text that begins with a character that is no blank. -/
theorem trim_cons_ne_nil {c : Char} (h : isBlank c = false) (s : List Char) :
    trim (c :: s) ≠ [] := by
  intro hnone
  obtain ⟨back, hall, hback⟩ := exists_trim (c :: s)
  simp only [hnone, List.takeWhile_cons, h, Bool.false_eq_true, if_false, List.nil_append] at hall
  have hblank := hback c (hall ▸ List.mem_cons_self)
  simp [h] at hblank

/-- Trimming adds no character. -/
theorem mem_of_mem_trim {s : List Char} {c : Char} (h : c ∈ trim s) : c ∈ s := by
  obtain ⟨back, hs, -⟩ := exists_trim s
  rw [hs]
  exact List.mem_append_left back (List.mem_append_right _ h)

end LineCensus.Text
