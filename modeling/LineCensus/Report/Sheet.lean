import LineCensus.Report.Document
import LineCensus.Csv
import LineCensus.Text.Quoted

namespace LineCensus

open Text

/-!
# Reports and comparisons as sheets

* `Report.sheet`, `Comparison.sheet` — the rows of a report and of a comparison.
* `SheetFault` — why a sheet gives no report.
* `Report.ofSheet` — the report of the rows of a sheet.  A sheet has the counts of files only; all
  else is derived from them.
-/

namespace Report

/-- The columns of a report. -/
def columns : List String := ["kind", "path", "language", "total", "logical", "comment", "empty"]

/-- The four counts as fields. -/
def tallyFields {α : Type} (show? : α → String) (t : Tally α) : Csv.Row :=
  [show? t.total, show? t.logical, show? t.comment, show? t.empty]

/-- The row of a file. -/
def fileRow (f : FileTally) : Csv.Row :=
  "file" :: f.path :: f.language :: tallyFields numeral f.tally

/-- The row of a file without a language. -/
def unsupportedRow (path : Letters) : Csv.Row := ["unsupported", path, "", "", "", "", ""]

/-- The rows of a report: a heading, the files, and the files without a language. -/
def sheet (r : Report) : List Csv.Row :=
  columns.map ofString :: r.files.map fileRow ++ r.unsupported.map unsupportedRow

end Report

/-- The rows of a comparison: the totals, the languages, then modified, new and removed files. -/
def Comparison.sheet (c : Comparison) : List Csv.Row :=
  let counts := Report.tallyFields intNumeral
  let total : Csv.Row :=
    "global" :: "summary" :: "" :: intNumeral c.totals.fileCount :: counts c.totals.tally
  let language (l : LanguageChange) : Csv.Row :=
    "language" :: l.language :: l.presence.name :: intNumeral l.fileCount :: counts l.tally
  let modified (f : FileChange) : Csv.Row := "file" :: f.path :: "modified" :: "" :: counts f.tally
  let named (status : String) (path : Letters) : Csv.Row :=
    ["file", path, status, "", "", "", "", ""]
  ["type", "name", "status", "files", "total", "logical", "comment", "empty"] :: total ::
    (c.languages.map language ++ c.modifiedFiles.map modified ++ c.newFiles.map (named "new") ++
      c.removedFiles.map (named "removed"))

/-- Why a sheet gives no report. -/
inductive SheetFault where
  | missingColumn (name : String)
  | unknownKind (line : Nat) (kind : Option Letters)
  | issue (line : Nat) (i : Schema.Issue)
  | strayReturn
  deriving DecidableEq

namespace Report

open Schema

/-- The cells of a row by their columns; a column that the row does not reach holds nothing. -/
def cells : Csv.Row → Csv.Row → Entries
  | [], _ => []
  | c :: cs, [] => (c, .null) :: cells cs []
  | c :: cs, f :: fs => (c, .text f) :: cells cs fs

/-- An entry of a sheet: a file or a file without a language. -/
abbrev Entry := FileTally ⊕ Letters

/-- The entry of a row. -/
def entryOf (line : Nat) (t : Table (Value Letters) Letters) : Except SheetFault Entry :=
  let issues {α : Type} : Checked α → Except SheetFault α
    | .ok a => .ok a
    | .error e => .error (.issue line (firstIssue e))
  match t.get? (ofString "kind") with
  | some (.text kind) =>
    if kind = ofString "unsupported" then (issues (readUnsupported t)).map .inr
    else if kind = ofString "file" then (issues (readFileEntry t)).map .inl
    else .error (.unknownKind line (some kind))
  | _ => .error (.unknownKind line none)

/-- The entries of rows; `line` is the number of the first of them. -/
def entriesFrom (header : Csv.Row) (line : Nat) : List Csv.Row → Except SheetFault (List Entry)
  | [] => .ok []
  | row :: rows =>
    match entryOf line (Table.ofList (cells header row)) with
    | .error e => .error e
    | .ok entry => (entriesFrom header (line + 1) rows).map (entry :: ·)

/-- The report of a sheet's text.  The first row is the heading; blank rows behind it are passed
    over and not counted. -/
def ofSheet (text : Letters) (now : Moment) : Except SheetFault Report :=
  let (rows, stray) := Csv.read text
  -- Not even the heading can be read.
  if rows.isEmpty && stray then .error .strayReturn
  else
    let header := rows.head?.getD []
    match columns.find? fun c => !header.contains (ofString c) with
    | some c => .error (.missingColumn c)
    | none =>
      match entriesFrom header 2 ((rows.drop 1).filter fun row => !row.isEmpty) with
      | .error e => .error e
      | .ok entries =>
        -- The rows in front of the return are read first, so it is their faults that count.
        if stray then .error .strayReturn
        else .ok (build (entries.filterMap Sum.getLeft?) (entries.filterMap Sum.getRight?) now)

end Report

end LineCensus
