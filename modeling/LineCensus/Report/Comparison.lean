import LineCensus.Report.Basic
import LineCensus.Table

namespace LineCensus

open Text

/-!
# Comparisons of two reports

* `Comparison` — the changes from an old report to a new one: per language, in all and per file.
* `Comparison.between` — the comparison of two reports.  A language that one side lacks counts as
  all zeros there.
* `Comparison.isEmpty` — there is no change.
-/

/-- How a language came into a comparison. -/
inductive Presence where
  | appeared
  | disappeared
  | changed
  deriving DecidableEq, Repr

/-- The name of a presence. -/
def Presence.name : Presence → String
  | .appeared => "appeared"
  | .disappeared => "disappeared"
  | .changed => "changed"

/-- The change of one language. -/
structure LanguageChange where
  language : Letters
  presence : Presence
  fileCount : Int
  tally : Tally Int
  deriving DecidableEq, Repr

/-- The change of the totals. -/
structure TotalsChange where
  fileCount : Int
  tally : Tally Int
  languageCount : Int
  deriving DecidableEq, Repr

/-- The change of one file that is in both reports. -/
structure FileChange where
  path : Letters
  tally : Tally Int
  deriving DecidableEq, Repr

/-- The changes from an old report to a new one. -/
structure Comparison where
  oldGeneratedAt : String
  newGeneratedAt : String
  languages : List LanguageChange
  totals : TotalsChange
  newFiles : List Letters
  removedFiles : List Letters
  modifiedFiles : List FileChange
  deriving DecidableEq, Repr

/-- No count changes. -/
def Tally.isZero (t : Tally Int) : Bool :=
  t.total == 0 && t.logical == 0 && t.comment == 0 && t.empty == 0

/-- No count of the language changes. -/
def LanguageChange.isZero (c : LanguageChange) : Bool := c.tally.isZero && c.fileCount == 0

/-- No total changes. -/
def TotalsChange.isZero (c : TotalsChange) : Bool :=
  c.tally.isZero && c.fileCount == 0 && c.languageCount == 0

/-- The number of files and the counts of a language, zeros if there is no such language. -/
def countsOf (l : Option LanguageTally) : Nat × Tally Nat :=
  match l with
  | some l => (l.fileCount, l.tally)
  | none => (0, Tally.zero)

/-- The change of the language `name` between two entries, either of which may be missing. -/
def languageChange (name : Letters) (old new : Option LanguageTally) : LanguageChange :=
  let a := countsOf old
  let b := countsOf new
  { language := name
    presence := if old.isNone then .appeared else if new.isNone then .disappeared else .changed
    fileCount := (b.1 : Int) - a.1
    tally := a.2.change b.2 }

/-- The change of the totals. -/
def totalsChange (old new : Totals) : TotalsChange where
  fileCount := (new.fileCount : Int) - old.fileCount
  tally := old.tally.change new.tally
  languageCount := (new.languageCount : Int) - old.languageCount

/-- The change of a file, if its language or one of its counts differs. -/
def fileChange? (old new : FileTally) : Option FileChange :=
  if old.language = new.language ∧ old.tally = new.tally then none
  else some ⟨new.path, old.tally.change new.tally⟩

/-- The files of a report by path. -/
def Report.fileTable (r : Report) : Table FileTally Letters :=
  Table.ofList (r.files.map fun f => (f.path, f))

/-- The languages of a report by name. -/
def Report.languageTable (r : Report) : Table LanguageTally Letters :=
  Table.ofList (r.languages.map fun l => (l.language, l))

/-- The keys of a table. -/
def Table.keys {α κ : Type} (t : Table α κ) : List κ := t.map (·.1)

/-- The changes from `old` to `new`. -/
def Comparison.between (old new : Report) : Comparison :=
  let oldLanguages := old.languageTable
  let newLanguages := new.languageTable
  let oldFiles := old.fileTable
  let newFiles := new.fileTable
  let languageNames := sorted (dedup (oldLanguages.keys ++ newLanguages.keys))
  let commonFiles := sorted (oldFiles.keys.filter newFiles.has)
  { oldGeneratedAt := old.generatedAt.iso
    newGeneratedAt := new.generatedAt.iso
    languages := languageNames.map fun name =>
      languageChange name (oldLanguages.get? name) (newLanguages.get? name)
    totals := totalsChange old.summary new.summary
    newFiles := sorted (newFiles.keys.filter fun p => !oldFiles.has p)
    removedFiles := sorted (oldFiles.keys.filter fun p => !newFiles.has p)
    modifiedFiles := commonFiles.filterMap fun p =>
      match oldFiles.get? p, newFiles.get? p with
      | some a, some b => fileChange? a b
      | _, _ => none }

namespace Comparison

/-- The languages that only the new report has. -/
def appeared (c : Comparison) : List Letters :=
  (c.languages.filter fun l => l.presence == .appeared).map (·.language)

/-- The languages that only the old report has. -/
def disappeared (c : Comparison) : List Letters :=
  (c.languages.filter fun l => l.presence == .disappeared).map (·.language)

/-- Nothing changed. -/
def isEmpty (c : Comparison) : Bool :=
  c.totals.isZero && c.languages.all (·.isZero) && c.appeared.isEmpty && c.disappeared.isEmpty &&
    c.newFiles.isEmpty && c.removedFiles.isEmpty && c.modifiedFiles.isEmpty

end Comparison

end LineCensus
