import LineCensus.Tally
import LineCensus.Moment.Basic
import LineCensus.Text.Order

namespace LineCensus

open Text

/-!
# Reports

* `Report` — a snapshot of line counts: files, languages, totals and the files without a language.
* `summarizeLanguages`, `summarize` — the counts per language in order of first appearance, and the
  totals over languages.
* `Report.build` — the report of a list of file counts, whatever their order.
* `Report.reprocess` — the report that the file counts of a report give.
-/

/-- A snapshot of line counts.  Languages and totals can always be derived from the files. -/
structure Report where
  version : String
  generatedAt : Moment
  files : List FileTally
  languages : List LanguageTally
  summary : Totals
  unsupported : List Letters
  checksum : Option Letters
  deriving DecidableEq

/-- The version of the report format that is written. -/
def formatVersion : String := "1.0"

/-- Adds one file to the counts per language; a new language goes to the end. -/
def countFile : List LanguageTally → FileTally → List LanguageTally
  | [], f => [⟨f.language, 1, f.tally⟩]
  | r :: rs, f =>
    if r.language = f.language then ⟨r.language, r.fileCount + 1, r.tally.add f.tally⟩ :: rs
    else r :: countFile rs f

/-- The counts per language, in the order in which the languages appear. -/
def summarizeLanguages (files : List FileTally) : List LanguageTally :=
  files.foldl countFile []

/-- The totals over all languages. -/
def summarize (languages : List LanguageTally) : Totals where
  fileCount := (languages.map (·.fileCount)).foldr (· + ·) 0
  tally := Tally.sum (languages.map (·.tally))
  languageCount := languages.length

/-- The counts of the language called `name`. -/
def Report.language? (r : Report) (name : Letters) : Option LanguageTally :=
  r.languages.find? fun l => l.language == name

/-- The report of a list of file counts: files in the order of their paths, every unsupported path
    once and in order. -/
def Report.build (files : List FileTally) (unsupported : List Letters) (generatedAt : Moment) :
    Report :=
  let files := sortOn (·.path) files
  let languages := summarizeLanguages files
  { version := formatVersion
    generatedAt
    files
    languages
    summary := summarize languages
    unsupported := sorted (dedup unsupported)
    checksum := none }

/-- The report that the file counts of `r` give.  Its checksum would be stale, so there is none. -/
def Report.reprocess (r : Report) : Report := Report.build r.files r.unsupported r.generatedAt

/-- Reports that say the same: equal in every field, the times of generation as points in time. -/
def Report.same (a b : Report) : Bool :=
  a.version == b.version && a.generatedAt.same b.generatedAt && a.files == b.files &&
    a.languages == b.languages && a.summary == b.summary && a.unsupported == b.unsupported &&
    a.checksum == b.checksum

end LineCensus
