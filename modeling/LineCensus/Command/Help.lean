import LineCensus.Command.Usage

namespace LineCensus.Command

open Text

/-!
# Pages of help

* `wrap` — a text broken into lines at its blanks.
* `definitions` — terms with their explanations in a second column.
* `summary` — the sentence that stands for a command, cut if it is long.
* `Grammar.page`, `programPage` — the help of a command and of the program.
-/

/-- The number of characters on a line, less the margin. -/
def pageWidth : Nat := 78

/-- The widest term that has its explanation beside it. -/
def widestTerm : Nat := 30

/-- Puts words on lines of at most `width` characters, behind a line that is begun. -/
def fillLines (width : Nat) (line : List Char) : List (List Char) → List (List Char)
  | [] => [line]
  | word :: words =>
    if line.length + 1 + word.length ≤ width then fillLines width (line ++ ' ' :: word) words
    else line :: fillLines width word words

/-- A text on lines of at most `width` characters, if no word of it is longer. -/
def wrap (width : Nat) (s : String) : List String :=
  match splitAtChar ' ' s.toList with
  | [] => []
  | word :: words => (fillLines width word words).map String.ofList

/-- A term and its explanation on one line or more, the explanation in a column of its own. -/
def definition (column : Nat) (term explanation : String) : List String :=
  let indent := String.ofList (List.replicate (column + 2) ' ')
  let front := "  " ++ term
  let gap := String.ofList (List.replicate (column - term.length) ' ')
  match wrap (pageWidth - column) explanation with
  | [] => [front]
  | line :: lines =>
    let first :=
      if term.length + 2 ≤ column then [front ++ gap ++ line] else [front, indent ++ line]
    first ++ lines.map (indent ++ ·)

/-- Terms with their explanations. -/
def definitions (rows : List (String × String)) : List String :=
  let widest := (rows.map (·.1.length)).foldr Nat.max 0
  rows.flatMap fun r => definition (Nat.min widest widestTerm + 2) r.1 r.2

/-- A switch on a page of help. -/
def Switch.term (s : Switch) : String :=
  let names := joinWith ", " s.names
  if s.domain.sign.isEmpty then names else names ++ " " ++ s.domain.sign

/-- What a switch is for, and what it demands. -/
def Switch.explanation (s : Switch) : String :=
  let range := if s.domain = .count then ["x>=0"] else []
  let need := if s.required then ["required"] else []
  match range ++ need with
  | [] => s.help
  | demands => s.help ++ "  [" ++ joinWith "; " demands ++ "]"

/-- The front of a page of help: usage, purpose and switches. -/
def Grammar.front (g : Grammar) : List String :=
  [g.usage, "", "  " ++ g.about, "", "Options:"] ++
    definitions (g.switches.map fun s => (s.term, s.explanation))

/-- The page of help of a command. -/
def Grammar.page (g : Grammar) : String := joinWith "\n" g.front ++ "\n"

/-! ### The page of the program -/

/-- The words of a sentence that fit `width` characters. -/
def fitting (width : Nat) : List String → List String
  | [] => []
  | word :: words =>
    if word.length ≤ width then word :: fitting (width - word.length - 1) words else []

/-- A sentence of at most `width` characters; if it is longer, its front with three dots. -/
def summary (width : Nat) (sentence : String) : String :=
  if sentence.length ≤ width then sentence
  else
    let words := (splitAtChar ' ' sentence.toList).map String.ofList
    joinWith " " (fitting (width - 3) words) ++ "..."

/-- The page of help of the program, with its commands. -/
def programPage : String :=
  let longest := (commands.map (·.1.length)).foldr Nat.max 0
  let rows := commands.map fun c => (c.1, summary (pageWidth - 6 - longest) c.2.about)
  joinWith "\n" (program.front ++ ["", "Commands:"] ++ definitions rows) ++ "\n"

/-- The version of the program. -/
def versionPage : String := "slocscan, version 0.1.0\n"

end LineCensus.Command
