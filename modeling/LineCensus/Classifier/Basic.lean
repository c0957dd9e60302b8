import LineCensus.Classifier.Scan
import LineCensus.Tally

namespace LineCensus.Classifier

open Text

/-!
# Classifying lines

* `LineKind` — blank, comment, code, or a directive left out of the counts.
* `classify` — the kind of one line and the state behind it.
* `trace` — the kinds and states of all lines of a file.
* `tallyOf`, `tallyFile` — the counts of a file, which always balance.

Comment tokens inside string literals are not told apart from others: lines are looked at one by
one, without a lexer.
-/

/-- The kind of a physical line. -/
inductive LineKind where
  | empty
  | comment
  | logical
  | excluded
  deriving DecidableEq, Repr

/-- The name of a kind. -/
def LineKind.name : LineKind → String
  | .empty => "empty"
  | .comment => "comment"
  | .logical => "logical"
  | .excluded => "excluded"

/-- A line whose first token is the language's directive mark. -/
def isDirective (l : Language) (line : List Char) : Bool :=
  match l.directiveMark with
  | some mark => startsWith mark.toList (trim line)
  | none => false

/-- The kind of a line that is neither blank nor a directive.  Code beside a comment counts as
    code. -/
def Seen.kind (seen : Seen) : LineKind :=
  if seen.code then .logical else if seen.comment then .comment else .logical

/-- The kind of a line met in state `s`, and the state behind it.  Blank lines belong to the block
    comment they stand in.  A directive outside block comments counts as code or, with `exclude`,
    not at all; it is scanned like any other line, for it may open a block comment. -/
def classify (l : Language) (exclude : Bool) (s : State) (line : List Char) : LineKind × State :=
  if allBlank line then (if s.inBlock then .comment else .empty, s)
  else
    let (seen, next) := scan l s line
    if s.depth = 0 && isDirective l line then (if exclude then .excluded else .logical, next)
    else (seen.kind, next)

/-- The kinds of all lines and the states behind them. -/
def trace (l : Language) (exclude : Bool) (s : State) : List (List Char) → List (LineKind × State)
  | [] => []
  | line :: lines =>
    let r := classify l exclude s line
    r :: trace l exclude r.2 lines

/-- The state behind the last line. -/
def finalState (s : State) (steps : List (LineKind × State)) : State :=
  (steps.getLast?.map (·.2)).getD s

/-- The counts of a list of kinds; excluded lines are in none of them. -/
def tallyOf (kinds : List LineKind) : Tally Nat :=
  let logical := kinds.count .logical
  let comment := kinds.count .comment
  let empty := kinds.count .empty
  ⟨logical + comment + empty, logical, comment, empty⟩

theorem tallyOf_balanced (kinds : List LineKind) : (tallyOf kinds).Balanced := rfl

/-- The steps of the classifier over the lines of one file. -/
def traceFile (l : Language) (exclude : Bool) (lines : List String) : List (LineKind × State) :=
  trace l exclude .outside (lines.map String.toList)

/-- The counts of one file.  A block comment still open at its end is no error. -/
def tallyFile (path : String) (l : Language) (exclude : Bool) (lines : List String) :
    FileTally where
  path
  language := l.name
  tally := tallyOf ((traceFile l exclude lines).map (·.1))
  balanced := tallyOf_balanced _

end LineCensus.Classifier
