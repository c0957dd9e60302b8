import LineCensus.Report.Basic

namespace LineCensus.Report

open Text

/-!
# Valid reports

* `Defect` — a rule that a report breaks.
* `defect?` — the first rule that a report breaks: a supported version, files in strictly ascending
  order, and languages and totals that follow from the files.
-/

/-- A rule that a report breaks. -/
inductive Defect where
  | version (found : String)
  | fileOrder
  | duplicateFiles
  | languages
  | summary
  | checksum (stored : Letters) (expected : String)
  deriving DecidableEq, Repr

/-- The major version that is read and written. -/
def majorVersion (version : String) : String :=
  String.ofList (version.toList.takeWhile (· != '.'))

/-- The field of the report that a defect is about. -/
def Defect.field : Defect → String
  | .version _ => "reportFormatVersion"
  | .fileOrder | .duplicateFiles => "files"
  | .languages => "languages"
  | .summary => "summary"
  | .checksum _ _ => "checksum"

/-- A defect in words. -/
def Defect.text : Defect → Letters
  | .version found =>
    ofString ("unsupported version " ++ found ++ " (expected " ++ majorVersion formatVersion ++
      ".x)")
  | .fileOrder => "entries are not in ascending path order"
  | .duplicateFiles => "duplicate file paths"
  | .languages => "language summaries do not match the per-file entries"
  | .summary => "global summary does not match the language summaries"
  | .checksum stored expected =>
    ofString "stored " ++ stored ++ ofString (" does not match " ++ expected)

/-- The first rule that the report breaks. -/
def defect? (r : Report) : Option Defect :=
  let paths := r.files.map (·.path)
  let languages := summarizeLanguages r.files
  if majorVersion r.version ≠ majorVersion formatVersion then some (.version r.version)
  else if paths ≠ sorted paths then some .fileOrder
  else if (dedup paths).length ≠ paths.length then some .duplicateFiles
  else if r.languages ≠ languages then some .languages
  else if r.summary ≠ summarize languages then some .summary
  else none

/-- A report that breaks no rule. -/
def Valid (r : Report) : Prop := defect? r = none

end LineCensus.Report
