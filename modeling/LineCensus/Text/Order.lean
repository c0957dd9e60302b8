import LineCensus.Text.Letter

namespace LineCensus.Text

/-!
# The order of texts

* `precedes` — the strict order of letters by code points, a shorter text before its extensions.
* `before` — this order on any kind of text.
* `atMost` — its reflexive closure, the order by which lists of names and paths are sorted.
* `sortOn`, `sorted` — stable sorting by a text key and of texts.
* `Ascending` — no repeats and sorted.
* `dedup` — the first occurrence of every text.
-/

/-- Strict order by code points. -/
def precedes : Letters → Letters → Bool
  | _, [] => false
  | [], _ :: _ => true
  | a :: s, b :: t => a.code < b.code || (a == b && precedes s t)

section

variable {τ : Type} [Spelled τ]

/-- Strict order by code points, on texts of any kind. -/
def before (s t : τ) : Bool := precedes (Spelled.spelling s) (Spelled.spelling t)

/-- Order by code points. -/
def atMost (s t : τ) : Bool := !before t s

/-- A stable sort by a text key. -/
def sortOn {α : Type} (key : α → τ) (xs : List α) : List α :=
  xs.mergeSort fun a b => atMost (key a) (key b)

/-- The texts in order. -/
def sorted (xs : List τ) : List τ := sortOn id xs

/-- Each text strictly precedes all that follow it. -/
def Ascending (xs : List τ) : Prop := xs.Pairwise fun s t => before s t = true

instance (xs : List τ) : Decidable (Ascending xs) :=
  inferInstanceAs (Decidable (xs.Pairwise fun s t => before s t = true))

end

/-- The texts without the repeats of earlier ones. -/
def dedup {τ : Type} [DecidableEq τ] (xs : List τ) : List τ :=
  xs.foldl (fun seen x => if seen.contains x then seen else seen ++ [x]) []

end LineCensus.Text
