import LineCensus.Xml.Names
import LineCensus.Proofs.Text.Blank
import LineCensus.Proofs.Text.Digit
import LineCensus.Proofs.Text.Letter
import LineCensus.Proofs.Text.Search

namespace LineCensus.Xml

open Text

/-!
# Texts in documents

* `settle` — a text as it is read back: its line ends are line feeds, and the blanks at its ends are
  lost; `settle_letters_eq_self_iff` tells which texts stay as they are.
* `isSolid` — a character that is kept wherever it stands; `settle_of_isSolid` and
  `isPrintable_of_isSolid` are about texts of such characters, as numbers are.
* `isPrintable` — a text that may stand in a document.
-/

/-- The text that is read for a text: line feeds for all line ends, no blanks at its ends.  A text with
    surrogates is not read at all. -/
def settle (s : Letters) : Letters :=
  match chars? s with
  | some t => letters (trim (unifyNewlines t))
  | none => s

/-- What is read for a text of characters. -/
theorem settle_letters (s : List Char) : settle (letters s) = letters (trim (unifyNewlines s)) := by
  rw [settle, chars?_letters]

/-- **Texts that are kept.**  They have no carriage returns, and no blanks at their ends. -/
theorem settle_letters_eq_self_iff {s : List Char} :
    settle (letters s) = letters s ↔ '\r' ∉ s ∧ trim s = s := by
  rw [settle_letters, letters_inj]
  constructor
  · intro h
    -- What is left of the unified text has no carriage return, and it is the text itself.
    have hreturn : '\r' ∉ s := by
      rw [← h]
      exact fun hmem => not_mem_unifyNewlines _ (mem_of_mem_trim hmem)
    rw [unifyNewlines_eq_self_iff.2 hreturn] at h
    exact ⟨hreturn, h⟩
  · rintro ⟨hreturn, htrim⟩
    rw [unifyNewlines_eq_self_iff.2 hreturn]
    exact htrim

/-- A character that is kept wherever it stands. -/
def isSolid (c : Char) : Bool := isChar c && !isBlank c

/-- Such a character may stand in a document and is no blank. -/
theorem isSolid_iff {c : Char} : isSolid c = true ↔ isChar c = true ∧ isBlank c = false := by
  rw [isSolid, Bool.and_eq_true, Bool.not_eq_true']

/-- A text of such characters has no blanks at its ends. -/
theorem trim_of_isSolid {s : List Char} (h : ∀ c ∈ s, isSolid c = true) : trim s = s :=
  trim_of_tight (tight_of_forall fun c hc => (isSolid_iff.1 (h c hc)).2)

/-- So it is kept. -/
theorem settle_of_isSolid {s : List Char} (h : ∀ c ∈ s, isSolid c = true) :
    settle (letters s) = letters s := by
  have hreturn : '\r' ∉ s := fun hmem => absurd (h _ hmem) (by decide)
  exact settle_letters_eq_self_iff.2 ⟨hreturn, trim_of_isSolid h⟩

/-- A text whose characters may stand in a document.  A surrogate is no character. -/
def isPrintable (s : Letters) : Bool := s.all (Letter.isChar isChar)

/-- A text of characters is printable if all of them may stand in a document. -/
theorem isPrintable_letters (s : List Char) : isPrintable (letters s) = s.all isChar := by
  rw [isPrintable, letters, List.all_map]
  rfl

/-- A text of characters that are kept is printable. -/
theorem isPrintable_of_isSolid {s : List Char} (h : ∀ c ∈ s, isSolid c = true) :
    isPrintable (letters s) = true := by
  rw [isPrintable_letters]
  exact List.all_eq_true.2 fun c hc => (isSolid_iff.1 (h c hc)).1

/-- A printable text is a string. -/
theorem exists_ofString_of_isPrintable {s : Letters} (h : isPrintable s = true) :
    ∃ t, s = ofString t := by
  rcases exists_ofString_or_surrogate s with hstring | ⟨n, hn⟩
  · exact hstring
  · exact absurd (List.all_eq_true.1 h _ hn) Bool.false_ne_true

/-- Line ends may stand in a document whatever kind they are of. -/
theorem all_isChar_unifyNewlines (s : List Char) :
    (unifyNewlines s).all isChar = s.all isChar := by
  have hfeed : isChar '\n' = true := rfl
  have hreturn : isChar '\r' = true := rfl
  fun_induction unifyNewlines s with
  | case1 => rfl
  | case2 s ih => simp only [List.all_cons, hfeed, hreturn, ih, Bool.true_and]
  | case3 s _ ih => simp only [List.all_cons, hfeed, hreturn, ih, Bool.true_and]
  | case4 c s _ _ ih => rw [List.all_cons, List.all_cons, ih]

/-- Digits are kept. -/
theorem isSolid_of_isDigit {c : Char} (h : isDigit c = true) : isSolid c = true := by
  simp only [isDigit, Bool.and_eq_true, decide_eq_true_eq] at h
  simp [isSolid, isChar, isBlank, isWhiteSpace]
  omega

/-- The characters of a number are kept. -/
theorem isSolid_of_mem_showInt {n : Int} {c : Char} (h : c ∈ showInt n) : isSolid c = true := by
  cases n with
  | ofNat n => exact isSolid_of_isDigit (isDigit_of_mem_showNat h)
  | negSucc n =>
    rcases List.mem_cons.1 h with rfl | h
    · rfl
    · exact isSolid_of_isDigit (isDigit_of_mem_showNat h)

end LineCensus.Xml
