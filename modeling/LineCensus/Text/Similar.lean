import LineCensus.Text.Order

namespace LineCensus.Text

/-!
# Similar names

* `matched` — the characters that two texts have in common: those of the longest run that stands in
  both, and those in common before and behind it.
* `isSimilar` — at least three fifths of the characters of both are in common.
* `similarTo` — the most similar names among some.
-/

/-- The length of what two texts have in common at their front. -/
def commonFront : List Char → List Char → Nat
  | a :: s, b :: t => if a = b then commonFront s t + 1 else 0
  | _, _ => 0

/-- A run that stands in two texts: its offsets and its length. -/
structure SharedRun where
  left : Nat
  right : Nat
  size : Nat
  deriving DecidableEq, Repr

/-- The longest run that stands in both texts, the first one of several. -/
def longestRun (s t : List Char) : SharedRun :=
  let places := (List.range s.length).flatMap fun i => (List.range t.length).map fun j => (i, j)
  places.foldl (fun best p =>
    let size := commonFront (s.drop p.1) (t.drop p.2)
    if best.size < size then ⟨p.1, p.2, size⟩ else best) ⟨0, 0, 0⟩

/-- The number of characters in common; `fuel` bounds the runs below one another. -/
def matchedWithin : Nat → List Char → List Char → Nat
  | 0, _, _ => 0
  | fuel + 1, s, t =>
    let run := longestRun s t
    if run.size = 0 then 0
    else
      matchedWithin fuel (s.take run.left) (t.take run.right) + run.size +
        matchedWithin fuel (s.drop (run.left + run.size)) (t.drop (run.right + run.size))

/-- The number of characters that two texts have in common. -/
def matched (s t : List Char) : Nat := matchedWithin (s.length + 1) s t

/-- Whether two texts have at least three fifths of their characters in common. -/
def isSimilar (s t : String) : Bool :=
  3 * (s.length + t.length) ≤ 10 * matched s.toList t.toList

/-- Whether `a` has more in common with the word than `b` has; of two that have as much in common
    the later name goes first. -/
def isCloser (word a b : String) : Bool :=
  let left := matched a.toList word.toList * (b.length + word.length)
  let right := matched b.toList word.toList * (a.length + word.length)
  right < left || (left == right && !before a b)

/-- Up to three names that are similar to a word, in the order of names. -/
def similarTo (word : String) (names : List String) : List String :=
  sorted (((names.filter fun n => isSimilar n word).mergeSort (isCloser word)).take 3)

end LineCensus.Text
