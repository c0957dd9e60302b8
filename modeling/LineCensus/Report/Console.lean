import LineCensus.Report.Comparison
import LineCensus.Scan.Fault
import LineCensus.Decimal.Dyadic

namespace LineCensus.Console

open Text

/-!
# Reports on a terminal

* `SortKey` — what a table is sorted by; `sortLanguages` and `sortFiles` sort by it.
* `table` — lines of a table with aligned columns.
* `report`, `comparison` — the text of a report and of a comparison.
-/

/-! ### Sorting -/

/-- What tables are sorted by. -/
inductive SortKey where
  | total
  | logical
  | comment
  | empty
  | name
  | language
  deriving DecidableEq, Repr

/-- The name of a key. -/
def SortKey.text : SortKey → String
  | .total => "total"
  | .logical => "logical"
  | .comment => "comment"
  | .empty => "empty"
  | .name => "name"
  | .language => "language"

/-- The keys. -/
def SortKey.all : List SortKey := [.total, .logical, .comment, .empty, .name, .language]

/-- The key with a name. -/
def SortKey.ofName? (s : String) : Option SortKey := SortKey.all.find? fun k => k.text == s

/-- The count that a key names. -/
def SortKey.count? (k : SortKey) (t : Tally Nat) : Option Nat :=
  match k with
  | .total => some t.total
  | .logical => some t.logical
  | .comment => some t.comment
  | .empty => some t.empty
  | .name | .language => none

/-- Sorts by a count with the largest first, and by a text where counts agree. -/
def sortDescending {α : Type} (count : α → Nat) (key : α → Letters) (xs : List α) : List α :=
  xs.mergeSort fun a b => count b < count a || (count a == count b && atMost (key a) (key b))

/-- Sorts by one text, and by another where those agree. -/
def sortOnTwo {α : Type} (first second : α → Letters) (xs : List α) : List α :=
  xs.mergeSort fun a b =>
    before (first a) (first b) || (first a == first b && atMost (second a) (second b))

/-- The languages in the order of a key. -/
def sortLanguages (key : Option SortKey) (ls : List LanguageTally) : List LanguageTally :=
  match key with
  | none => ls
  | some .name | some .language => sortOn (·.language) ls
  | some k => sortDescending (fun l => (k.count? l.tally).getD 0) (·.language) ls

/-- The files in the order of a key. -/
def sortFiles (key : Option SortKey) (fs : List FileTally) : List FileTally :=
  match key with
  | none | some .name => fs
  | some .language => sortOnTwo (·.language) (·.path) fs
  | some k => sortDescending (fun f => (k.count? f.tally).getD 0) (·.path) fs

/-! ### Cells -/

/-- A number with commas between groups of three digits. -/
def grouped (n : Nat) : String := String.ofList (groupedNat n)

/-- A change with its sign. -/
def signed (n : Int) : String :=
  let text := String.ofList (groupedInt n)
  if 0 < n then "+" ++ text else text

/-- A share in percent with two places. -/
def percent (part whole : Nat) : String :=
  if whole = 0 then "0.00 %"
  else Decimal.showFixed 2 (Decimal.ofRatio part whole * 100.0) ++ " %"

/-- The four counts as cells. -/
def tallyCells {α : Type} (cell : α → String) (t : Tally α) : List Letters :=
  [cell t.total, cell t.logical, cell t.comment, cell t.empty]

/-! ### Tables -/

/-- The widths of the columns. -/
def widths (headers : List Letters) (rows : List (List Letters)) : List Nat :=
  rows.foldl (List.zipWith fun w cell => if w < cell.length then cell.length else w)
    (headers.map List.length)

/-- A cell at the left end of its column, or at the right end. -/
def align (left : Bool) (w : Nat) (cell : Letters) : Letters :=
  (if left then padRight else padLeft) w (.char ' ') cell

/-- The cells of a row: the first at the left, the others at the right. -/
def alignRow : List Nat → List Letters → List Letters
  | w :: ws, cell :: cells => align true w cell :: List.zipWith (align false) ws cells
  | _, _ => []

/-- The lines of a table. -/
def table (headers : List Letters) (rows : List (List Letters)) : List Letters :=
  let ws := widths headers rows
  let line (cells : List Letters) := joinLetters "  " (alignRow ws cells)
  line headers :: joinLetters "  " (ws.map fun w => List.replicate w (.char '-')) ::
    rows.map line

/-- A line across the page. -/
def rule : Letters := List.replicate 78 (.char '=')

/-! ### Reports -/

/-- The table of the totals. -/
def summaryTable (r : Report) : List Letters :=
  let s := r.summary
  let share (n : Nat) := percent n s.tally.total
  table ["Metric", "Value", "%"]
    [["Total Files", grouped s.fileCount, ""],
     ["Unsupported Files", grouped r.unsupported.length, ""],
     ["Total Lines", grouped s.tally.total, share s.tally.total],
     ["Logical Lines", grouped s.tally.logical, share s.tally.logical],
     ["Comment Lines", grouped s.tally.comment, share s.tally.comment],
     ["Empty Lines", grouped s.tally.empty, share s.tally.empty],
     ["Languages", grouped s.languageCount, ""]]

/-- The table of the languages, unless there are none. -/
def languageTable (key : Option SortKey) (r : Report) : List Letters :=
  if r.languages.isEmpty then []
  else ofString "" :: ofString "Languages" ::
    table ["Language", "Files", "Total", "Logical", "Comment", "Empty"]
      ((sortLanguages key r.languages).map fun l =>
        l.language :: ofString (grouped l.fileCount) :: tallyCells grouped l.tally)

/-- The table of the files, and the files without a language. -/
def fileTable (key : Option SortKey) (r : Report) : List Letters :=
  ofString "" :: ofString "Files" ::
    table ["Path", "Language", "Total", "Logical", "Comment", "Empty"]
      ((sortFiles key r.files).map fun f =>
        f.path :: f.language :: tallyCells grouped f.tally) ++
    if r.unsupported.isEmpty then []
    else ofString "" :: ofString "Unsupported Files (not counted):" ::
      r.unsupported.map fun p => ofString "  - " ++ p

/-- The files that were skipped. -/
def faultLines (faults : List ScanFault) : List Letters :=
  if faults.isEmpty then []
  else ofString "" :: ofString ("Errors (" ++ numeral faults.length ++ " file(s) skipped):") ::
    faults.map fun f => ofString f.line

/-- The checksum, unless there is none. -/
def checksumLines (r : Report) : List Letters :=
  match r.checksum with
  | none => []
  | some c => if c.isEmpty then [] else ["", ofString "Checksum: " ++ c]

/-- The text of a report, with its files if `details` are wanted. -/
def report (key : Option SortKey) (details : Bool) (faults : List ScanFault) (r : Report) :
    Letters :=
  let heading : List Letters :=
    [rule, "Source Lines of Code (SLOC) Report", rule, "", "Global Summary"]
  joinLetters "\n" <|
    heading ++ summaryTable r ++ languageTable key r ++
      (if details then fileTable key r else []) ++ faultLines faults ++ checksumLines r

/-! ### Comparisons -/

/-- The longest list of files that is shown. -/
def maxListed : Nat := 10

/-- A list of files with their number; only a short list is shown. -/
def fileList (title mark : String) (items : List Letters) : List Letters :=
  if items.isEmpty then []
  else ofString "" :: ofString (title ++ ": " ++ numeral items.length) ::
    if items.length ≤ maxListed then items.map fun i => ofString ("  " ++ mark ++ " ") ++ i else []

/-- The languages that changed, unless there are none. -/
def languageChanges (c : Comparison) : List Letters :=
  match c.languages.filter fun l => !l.isZero || l.presence != .changed with
  | [] => []
  | changed =>
    ofString "" :: ofString "Language Changes" ::
      table ["Language", "Status", "Files", "Total", "Logical", "Comment", "Empty"]
        (changed.map fun l =>
          l.language :: ofString l.presence.name :: ofString (signed l.fileCount) ::
            tallyCells signed l.tally)

/-- The text of a comparison. -/
def comparison (c : Comparison) : Letters :=
  let t := c.totals
  let heading : List Letters :=
    [rule, "Report Comparison", rule, "", ofString ("  Old report: " ++ c.oldGeneratedAt),
      ofString ("  New report: " ++ c.newGeneratedAt), "", "Global Changes"]
  joinLetters "\n" <|
    heading ++
      table ["Metric", "Delta"]
        [["Files", signed t.fileCount], ["Total Lines", signed t.tally.total],
         ["Logical Lines", signed t.tally.logical], ["Comment Lines", signed t.tally.comment],
         ["Empty Lines", signed t.tally.empty], ["Languages", signed t.languageCount]] ++
      languageChanges c ++ fileList "New Files" "+" c.newFiles ++
      fileList "Removed Files" "-" c.removedFiles ++
      fileList "Modified Files" "~"
        (c.modifiedFiles.map fun f =>
          f.path ++ ofString (" (" ++ signed f.tally.total ++ ")")) ++
      if c.isEmpty then [ofString "", ofString "No differences."] else []

end LineCensus.Console
