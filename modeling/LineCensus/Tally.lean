import LineCensus.Text.Letter

namespace LineCensus

open Text

/-!
# Line tallies

* `Tally` — the four counts that every level of a report has, over any number type.
* `FileTally`, `LanguageTally`, `Totals` — the counts of one file, of one language and of a whole
  report.
-/

/-- Counts of lines: in all, with code, with comments only, and blank. -/
structure Tally (α : Type) where
  total : α
  logical : α
  comment : α
  empty : α
  deriving DecidableEq, Repr

/-- The total is the sum of the three kinds. -/
def Tally.Balanced (t : Tally Nat) : Prop := t.total = t.logical + t.comment + t.empty

instance (t : Tally Nat) : Decidable t.Balanced :=
  inferInstanceAs (Decidable (t.total = t.logical + t.comment + t.empty))

/-- Combines two tallies count by count. -/
def Tally.zipWith {α β γ : Type} (f : α → β → γ) (s : Tally α) (t : Tally β) : Tally γ :=
  ⟨f s.total t.total, f s.logical t.logical, f s.comment t.comment, f s.empty t.empty⟩

/-- Changes every count. -/
def Tally.map {α β : Type} (f : α → β) (t : Tally α) : Tally β :=
  ⟨f t.total, f t.logical, f t.comment, f t.empty⟩

/-- No lines. -/
def Tally.zero : Tally Nat := ⟨0, 0, 0, 0⟩

/-- The sum of two tallies. -/
def Tally.add (s t : Tally Nat) : Tally Nat := s.zipWith (· + ·) t

/-- The sum of a list of tallies. -/
def Tally.sum (ts : List (Tally Nat)) : Tally Nat := ts.foldr Tally.add Tally.zero

/-- The change from one tally to another. -/
def Tally.change (old new : Tally Nat) : Tally Int :=
  old.zipWith (fun (a b : Nat) => (b : Int) - (a : Int)) new

/-- The counts of one file. -/
structure FileTally where
  path : Letters
  language : Letters
  tally : Tally Nat
  balanced : tally.Balanced
  deriving DecidableEq

/-- The counts of all files of one language. -/
structure LanguageTally where
  language : Letters
  fileCount : Nat
  tally : Tally Nat
  deriving DecidableEq, Repr

/-- The counts of a whole report. -/
structure Totals where
  fileCount : Nat
  tally : Tally Nat
  languageCount : Nat
  deriving DecidableEq, Repr

end LineCensus
