import LineCensus.Command.Scanning

namespace LineCensus.Command

open Text

/-!
# The commands on saved reports and on languages

* `loadReport` — a saved report.
* `runProcess` — prints a saved report, and saves it again if it is told to.
* `runCompare` — prints the comparison of two saved reports, and saves it if it is told to.
* `runLanguages` — lists the languages with their extensions.
-/

/-- The report in the file at a path. -/
def loadReport (now : Moment) (path : String) : Run Report := do
  match Report.loadFile (← get).files path none now with
  | .error e => failStore e
  | .ok r =>
    note [⟨.info, "storage", "storage.report_loaded",
      [("path", .text (Path.display path)), ("files", .int r.files.length)]⟩]
    return r

/-- Prints a saved report. -/
def runProcess (w : Surroundings) (g : Given) : Run Unit := do
  let r := (← loadReport w.now (g.word 0)).reprocess
  let key := (g.text? "sort").bind Console.SortKey.ofName?
  print (Console.report key (g.isOn "details") [] r)
  if let some path := filled? (g.text? "export") then
    saveReport r path (Format.choose (g.text? "format") path "json")
    print (ofString ("\nProcessed report exported to: " ++ path))

/-- Saves a comparison in the format with a name. -/
def saveComparison (c : Comparison) (path format : String) : Run Unit := do
  match c.saveFile (← get).files path (some format) with
  | .error e => failStore e
  | .ok files =>
    putFiles files
    note [⟨.info, "storage", "storage.diff_saved",
      [("path", .text (Path.display path)), ("format", .text format)]⟩]

/-- Compares two saved reports. -/
def runCompare (w : Surroundings) (g : Given) : Run Unit := do
  let old ← loadReport w.now (g.word 0)
  let new ← loadReport w.now (g.word 1)
  let c := Comparison.between old new
  print (Console.comparison c)
  if let some path := filled? (g.text? "export") then
    saveComparison c path (Format.choose (g.text? "format") path "json")
    print (ofString ("\nComparison exported to: " ++ path))

/-- A language with its extensions, in a line. -/
def languageLine (r : Registry) (c : Claimant) : String :=
  let name := String.ofList (padRight 12 ' ' c.language.name.toList)
  let owned := r.owned c
  let extensions := if owned.isEmpty then "(none)" else joinWith ", " (owned.map ("." ++ ·))
  name ++ " " ++ extensions ++ (if c.language.nested then "  [nested]" else "")

/-- Lists the languages. -/
def runLanguages (g : Given) : Run Unit := do
  let c ← loadConfig (g.text? "config") false none
  note ((Registry.reassignments (builtinLanguages ++ c.definitions)).map reassignmentRecord)
  let r := Registry.withBuiltins c.definitions
  write (String.join (r.all.map fun l => languageLine r l ++ "\n"))

end LineCensus.Command
