import LineCensus.Report.Validity
import LineCensus.Report.Comparison
import LineCensus.Schema.Scalar
import LineCensus.Json.Printer
import LineCensus.Text.Sha256
import LineCensus.Text.Utf8

namespace LineCensus

open Text

/-!
# Reports as documents

* `Report.toValue`, `Comparison.toValue` — the document of a report and of a comparison.
* `Report.ofValue` — the report of a document.  Every field may be spelled with capitals inside or
  with underscores.
* `Report.canonical`, `Report.digest` — the bytes that identify what a report says, and their
  digest.
* `Report.signed` — a report that carries its digest.
* `Report.checked` — a document's report, if it is valid and its digest is right.
-/

namespace Report

/-! ### Writing -/

/-- Entries of a table of letters. -/
abbrev Entries := List (Letters × Value Letters)

/-- The four counts as entries. -/
def tallyEntries {α : Type} (number : α → Int) (t : Tally α) : Entries :=
  [("total", .int (number t.total)), ("logical", .int (number t.logical)),
   ("comment", .int (number t.comment)), ("empty", .int (number t.empty))]

/-- The document of the counts of a file. -/
def fileValue (f : FileTally) : Value Letters :=
  .table (("path", .text f.path) :: ("language", .text f.language) ::
    tallyEntries Int.ofNat f.tally)

/-- The document of the counts of a language. -/
def languageValue (l : LanguageTally) : Value Letters :=
  .table (("language", .text l.language) :: ("fileCount", .int l.fileCount) ::
    tallyEntries Int.ofNat l.tally)

/-- The document of the totals. -/
def summaryValue (s : Totals) : Value Letters :=
  .table (("totalFiles", .int s.fileCount) :: (tallyEntries Int.ofNat s.tally ++
    ([("languagesCount", .int s.languageCount)] : Entries)))

/-- The entries of a report without its checksum. -/
def contentEntries (r : Report) : Entries :=
  [("reportFormatVersion", .text r.version), ("generatedAt", .text r.generatedAt.stored),
   ("files", .list (r.files.map fileValue)), ("languages", .list (r.languages.map languageValue)),
   ("summary", summaryValue r.summary),
   ("unsupportedFiles", .list (r.unsupported.map fun p => .table [("path", .text p)]))]

/-- The document of a report; a checksum stands last. -/
def toValue (r : Report) : Value Letters :=
  .table (r.contentEntries ++ r.checksum.toList.map fun c => (ofString "checksum", .text c))

end Report

open Report in
/-- The document of a comparison. -/
def Comparison.toValue (c : Comparison) : Value Letters :=
  let counts := tallyEntries (id : Int → Int)
  .table
    [("old_generated_at", .text c.oldGeneratedAt), ("new_generated_at", .text c.newGeneratedAt),
     ("language_deltas", .list (c.languages.map fun l =>
        .table (counts l.tally ++ ([("language", .text l.language),
          ("status", .text l.presence.name), ("file_count", .int l.fileCount)] : Entries)))),
     ("global_delta", .table (counts c.totals.tally ++
        ([("total_files", .int c.totals.fileCount),
          ("languages_count", .int c.totals.languageCount)] : Entries))),
     ("new_files", .list (c.newFiles.map .text)),
     ("removed_files", .list (c.removedFiles.map .text)),
     ("modified_files", .list (c.modifiedFiles.map fun f =>
        .table (counts f.tally ++ ([("path", .text f.path)] : Entries))))]

mutual

/-- The document with the entries of every table in the order of their keys. -/
def Value.sortKeys : Value Letters → Value Letters
  | .list items => .list (sortKeysList items)
  | .table entries => .table (sortOn (·.1) (sortKeysTable entries))
  | v => v

/-- The items with the entries of every table in order. -/
def sortKeysList : List (Value Letters) → List (Value Letters)
  | [] => []
  | v :: vs => v.sortKeys :: sortKeysList vs

/-- The entries with those of every table below them in order. -/
def sortKeysTable : List (Letters × Value Letters) → List (Letters × Value Letters)
  | [] => []
  | (k, v) :: es => (k, v.sortKeys) :: sortKeysTable es

end

namespace Report

/-- The text that identifies what a report says: its document without the checksum, keys in order,
    on one line. -/
def canonicalText (r : Report) : Letters :=
  Json.write .compact (Value.sortKeys (.table r.contentEntries))

/-- The bytes that identify what a report says.  Surrogates are escaped in the text, so it always
    has bytes. -/
def canonical (r : Report) : List UInt8 := (encode? r.canonicalText).getD []

/-- The digest of what a report says. -/
def digest (r : Report) : String := Sha256.digest r.canonical

/-- The report with its digest as checksum. -/
def signed (r : Report) : Report := { r with checksum := some (ofString r.digest) }

/-- The defect of a checksum that is not the digest. -/
def checksumDefect? (r : Report) : Option Defect :=
  match r.checksum with
  | none => none
  | some stored => if stored = ofString r.digest then none else some (.checksum stored r.digest)

/-! ### Reading -/

open Schema

/-- The four counts among the fields of a table. -/
def readTally (t : Table (Value Letters) Letters) : Checked (Tally Nat) :=
  (both (field t ["total"] count) <| both (field t ["logical"] count) <|
    both (field t ["comment"] count) (field t ["empty"] count)).map
    fun (total, logical, comment, empty) => ⟨total, logical, comment, empty⟩

/-- The words for counts of a file that do not add up. -/
def imbalance (path : Letters) (t : Tally Nat) : Letters :=
  ofString ("total (" ++ numeral t.total ++ ") != logical + comment + empty (" ++
    numeral t.logical ++ " + " ++ numeral t.comment ++ " + " ++ numeral t.empty ++ ") for ") ++ path

/-- The counts of a file with the given path, if they add up. -/
def balancedFile (path language : Letters) (t : Tally Nat) : Checked FileTally :=
  if h : t.Balanced then .ok ⟨path, language, t, h⟩ else refuse (.rule (imbalance path t))

/-- The counts of a file. -/
def readFileEntry (t : Table (Value Letters) Letters) : Checked FileTally :=
  match both (field t ["path"] text) (both (field t ["language"] text) (readTally t)) with
  | .error e => .error e
  | .ok (path, language, tally) => balancedFile path language tally

/-- The counts of a language. -/
def readLanguage (t : Table (Value Letters) Letters) : Checked LanguageTally :=
  (both (field t ["language"] text) <| both (field t ["fileCount", "file_count"] count)
    (readTally t)).map fun (language, fileCount, tally) => ⟨language, fileCount, tally⟩

/-- The totals. -/
def readTotals (t : Table (Value Letters) Letters) : Checked Totals :=
  (both (field t ["totalFiles", "total_files"] count) <| both (readTally t)
    (field t ["languagesCount", "languages_count"] count)).map
    fun (fileCount, tally, languageCount) => ⟨fileCount, tally, languageCount⟩

/-- A file without a language. -/
def readUnsupported (t : Table (Value Letters) Letters) : Checked Letters := field t ["path"] text

/-- A report as the document spells it, valid or not. -/
def read (t : Table (Value Letters) Letters) : Checked Report :=
  (both (field t ["reportFormatVersion", "report_format_version"] Schema.version) <|
    both (field t ["generatedAt", "generated_at"] moment) <|
    both (field t ["files"] (list (record "FileStat" readFileEntry))) <|
    both (field t ["languages"] (list (record "LanguageSummary" readLanguage))) <|
    both (field t ["summary"] (record "GlobalSummary" readTotals)) <|
    both (field t ["unsupportedFiles", "unsupported_files"]
      (list (record "UnsupportedFile" readUnsupported)))
    (fieldOr t ["checksum"] none (optional text))).map
    fun (version, generatedAt, files, languages, summary, unsupported, checksum) =>
      { version, generatedAt, files, languages, summary, unsupported, checksum }

/-- Why a document gives no report. -/
inductive Refusal where
  | notTable
  | issue (i : Issue)
  | defect (d : Defect)
  deriving DecidableEq

/-- The first of a list of issues. -/
def firstIssue (issues : List Issue) : Issue := issues.head?.getD ⟨[], .missing⟩

/-- The report, if it is valid and its checksum is right. -/
def checked (r : Report) : Except Refusal Report :=
  match r.defect? with
  | some d => .error (.defect d)
  | none =>
    match r.checksumDefect? with
    | some d => .error (.defect d)
    | none => .ok r

/-- The report of a document. -/
def ofValue : Value Letters → Except Refusal Report
  | .table t =>
    match read t with
    | .error issues => .error (.issue (firstIssue issues))
    | .ok r => r.checked
  | _ => .error .notTable

end Report

end LineCensus
