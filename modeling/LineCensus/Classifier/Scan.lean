import LineCensus.Language.Basic
import LineCensus.Text.Search

namespace LineCensus.Classifier

open Text

/-!
# Scanning one line for comments

* `State` — what is carried from line to line: the depth of open block comments and the delimiters
  of the outermost one.
* `nextOpening?` — the earliest token that opens a comment; of several at one place the longest.
* `Round`, `round` — one jump along a line, to just behind the next token that matters.
* `scan` — the rounds of a whole line.  It ends because every round leaves a shorter rest.
-/

/-- Open block comments.  The delimiters are those of the outermost one. -/
structure State where
  depth : Int
  pair : Option Delimiters
  deriving DecidableEq

/-- Outside every block comment. -/
def State.outside : State := ⟨0, none⟩

/-- Inside a block comment. -/
def State.inBlock (s : State) : Bool := 0 < s.depth

/-- What a scan has met: text outside comments, and comments. -/
structure Seen where
  code : Bool
  comment : Bool
  deriving DecidableEq, Repr

/-- Met in one part of a line or in the other. -/
def Seen.or (a b : Seen) : Seen := ⟨a.code || b.code, a.comment || b.comment⟩

/-! ### Opening tokens -/

/-- A token that opens a comment outside block comments. -/
inductive Opening where
  | line (token : String)
  | block (pair : Delimiters)
  deriving DecidableEq

/-- The characters of the token. -/
def Opening.token : Opening → List Char
  | .line token => token.toList
  | .block pair => pair.opening.toList

/-- The opening tokens of a language: line comments first. -/
def openings (l : Language) : List Opening :=
  l.lineComments.map .line ++ l.blockComments.map .block

/-- A token at an offset is preferred to one found so far if it comes earlier, or at the same
    offset and is longer. -/
def better (found : Option (Nat × Opening)) (offset : Nat) (o : Opening) : Bool :=
  match found with
  | none => true
  | some (i, best) => offset < i || (offset == i && best.token.length < o.token.length)

/-- The earliest opening token of the text with its offset, the longest of several at one offset,
    and the first listed of equally long ones. -/
def nextOpening? (candidates : List Opening) (text : List Char) : Option (Nat × Opening) :=
  candidates.foldl (fun found o =>
    match indexOf? o.token text with
    | some i => if better found i o then some (i, o) else found
    | none => found) none

/-! ### Rounds -/

/-- The outcome of a round: the line holds nothing more that matters, or the scan goes on in a new
    state with the rest of the line. -/
inductive Round where
  | stop (seen : Seen)
  | next (seen : Seen) (state : State) (rest : List Char)

/-- The state after a closing token. -/
def State.leave (l : Language) (pair : Delimiters) (s : State) : State :=
  let depth := if l.nests pair then s.depth - 1 else 0
  ⟨depth, if depth = 0 then none else some pair⟩

/-- A round outside block comments. -/
def outsideRound (l : Language) (text : List Char) : Round :=
  match nextOpening? (openings l) text with
  | none => .stop ⟨!allBlank text, false⟩
  -- The rest of the line belongs to the comment.
  | some (i, .line _) => .stop ⟨!allBlank (text.take i), true⟩
  | some (i, .block pair) =>
    .next ⟨!allBlank (text.take i), true⟩ ⟨1, some pair⟩
      (text.drop (i + pair.opening.toList.length))

/-- The offset of the next token that opens a comment inside a comment. -/
def nestedOpening? (l : Language) (pair : Delimiters) (text : List Char) : Option Nat :=
  if l.nests pair then indexOf? pair.opening.toList text else none

/-- The round that goes one block deeper at offset `i`. -/
def enterRound (s : State) (pair : Delimiters) (text : List Char) (i : Nat) : Round :=
  .next ⟨false, true⟩ ⟨s.depth + 1, some pair⟩ (text.drop (i + pair.opening.toList.length))

/-- The round that closes a block at offset `j`. -/
def leaveRound (l : Language) (s : State) (pair : Delimiters) (text : List Char) (j : Nat) :
    Round :=
  .next ⟨false, true⟩ (s.leave l pair) (text.drop (j + pair.closing.toList.length))

/-- A round inside a block comment with the given delimiters. -/
def insideRound (l : Language) (s : State) (pair : Delimiters) (text : List Char) : Round :=
  match nestedOpening? l pair text, indexOf? pair.closing.toList text with
  -- Where both begin at one place, the block is closed.
  | some i, some j => if i < j then enterRound s pair text i else leaveRound l s pair text j
  | some i, none => enterRound s pair text i
  | none, some j => leaveRound l s pair text j
  | none, none => .stop ⟨false, true⟩

/-- One round. -/
def round (l : Language) (s : State) (text : List Char) : Round :=
  if s.depth = 0 then outsideRound l text
  else match s.pair with
    -- No run of the classifier has a depth without a pair.
    | none => .stop ⟨false, true⟩
    | some pair => insideRound l s pair text

/-! ### Progress -/

theorem length_toList_pos {s : String} (h : s ≠ "") : 0 < s.toList.length := by
  rcases hs : s.toList with _ | ⟨c, r⟩
  · exact absurd (String.toList_inj.1 (by simpa using hs)) h
  · simp

theorem length_drop_lt {text : List Char} (ht : text ≠ []) {i n : Nat} (hn : 0 < n) :
    (text.drop (i + n)).length < text.length := by
  have := List.length_pos_iff.2 ht
  rw [List.length_drop]
  omega

/-- A round that goes on leaves a shorter rest. -/
theorem round_rest_lt {l : Language} {s state : State} {text rest : List Char} {seen : Seen}
    (ht : text ≠ []) (h : round l s text = .next seen state rest) :
    rest.length < text.length := by
  -- Every round that goes on takes an opening or a closing, and neither is empty.
  unfold round at h
  split at h
  · unfold outsideRound at h
    split at h
    · cases h
    · cases h
    · cases h
      exact length_drop_lt ht (length_toList_pos (Delimiters.opening_ne _))
  · split at h
    · cases h
    · next pair _ =>
      have ho := length_toList_pos pair.opening_ne
      have hc := length_toList_pos pair.closing_ne
      unfold insideRound at h
      split at h
      · split at h <;> cases h
        · exact length_drop_lt ht ho
        · exact length_drop_lt ht hc
      · cases h
        exact length_drop_lt ht ho
      · cases h
        exact length_drop_lt ht hc
      · cases h

/-! ### Whole lines -/

/-- Scans the rest of a line in the given state. -/
def scan (l : Language) (s : State) (text : List Char) : Seen × State :=
  if ht : text = [] then (⟨false, false⟩, s)
  else match h : round l s text with
    | .stop seen => (seen, s)
    | .next seen state rest =>
      have : rest.length < text.length := round_rest_lt ht h
      let later := scan l state rest
      (seen.or later.1, later.2)
termination_by text.length

end LineCensus.Classifier
