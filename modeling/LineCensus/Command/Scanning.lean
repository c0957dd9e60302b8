import LineCensus.Command.Given
import LineCensus.Command.Session
import LineCensus.Config.Files
import LineCensus.Files.Collect
import LineCensus.Scan.Journal

namespace LineCensus.Command

open Text

/-!
# The commands that scan

* `ScanOptions` — what both commands are given.
* `loadConfig`, `scan`, `exportReport`, `finish` — the parts of a scan that both share.
* `runCount` — counts and prints, and saves a report if it is told to.
* `runReport` — counts and saves a report.
-/

/-- What the commands that scan are given. -/
structure ScanOptions where
  paths : List String
  recursive : Bool
  config : Option String
  threads : Nat
  checksum : Bool
  exclude : Bool
  overrides : List (String × String)
  metrics : Bool
  metricsFile : Option String
  fromInput : Bool

/-- The options among what a command is given. -/
def ScanOptions.ofGiven (g : Given) : ScanOptions where
  paths := g.words
  recursive := g.isOn "recursive"
  config := g.text? "config"
  threads := g.number "threads"
  checksum := g.isOn "checksum"
  exclude := g.isOn "ignore-preprocessor"
  overrides := g.overrides "language-override"
  metrics := g.isOn "enable-metrics"
  metricsFile := g.text? "metrics-file"
  fromInput := g.isOn "stdin"

/-- The configuration that a command uses. -/
def loadConfig (path : Option String) (metrics : Bool) (metricsFile : Option String) :
    Run Config := do
  match Config.load (← get).files path metrics metricsFile with
  | .ok c => return c
  | .error e =>
    match e with
    | .misused m => crash (.misusedConfig m)
    | .notUtf8 _ => crash .undecodableConfig
    | .excess e => crash (.excess e)
    | .unreadable _ .nullCharacter => crash (.unusablePath .nullCharacter)
    | e => fail (e.message?.getD "")

/-! ### Records -/

/-- A notice about the arguments as a record. -/
def noticeRecord : Files.Notice → Log.Record
  | .missingInput path => ⟨.warning, "paths", "paths.stdin_missing", [("path", .text path)]⟩
  | .noMatch pattern => ⟨.warning, "paths", "paths.glob_no_match", [("pattern", .text pattern)]⟩
  | .skippedDirectory path =>
    ⟨.warning, "paths", "paths.directory_skipped",
      [("path", .text path), ("hint", .text "use -r to recurse")]⟩

/-- An extension that passes to another language, as a record. -/
def reassignmentRecord (r : Registry.Reassignment) : Log.Record :=
  ⟨.debug, "registry", "registry.extension_reassigned",
    [("extension", .text r.ext), ("old", .text r.old), ("new", .text r.new)]⟩

/-- The beginning of a run as a record. -/
def startRecord (operation : String) (o : ScanOptions) : Log.Record :=
  ⟨.debug, "metrics", "metrics.run_started",
    [("operation", .text operation), ("paths", .int o.paths.length),
     ("recursive", .bool o.recursive), ("threads", .int o.threads)]⟩

/-- The end of a run as a record. -/
def stopRecord (m : Metrics Float) (elapsed : Option Float) : Log.Record :=
  ⟨.debug, "metrics", "metrics.run_finished",
    [("operation", .text m.operation), ("elapsed", Metrics.timeValue elapsed)]⟩

/-! ### Parts of a scan -/

/-- The run begins. -/
def begin (operation : String) (now : Moment) (processors : Nat) (o : ScanOptions) : Run Unit := do
  measure fun m => (m.tell fun x => { x with operation }).beginRun now processors
  note [startRecord operation o]

/-- Reads sources from files. -/
def fileReader (files : Files.Tree) : Scan.Reader := fun path =>
  (Files.readLines files path).mapError fun
    | .path fault => .path fault.text
    | .encoding fault => .encoding fault.reason

/-- The paths that are to be scanned. -/
def collectPaths (w : Surroundings) (o : ScanOptions) (c : Config) : Run (List String) := do
  measure (·.startPhase "collect")
  let lines := if o.fromInput then
      (splitAtChar '\n' (unifyNewlines w.input.toList)).map String.ofList
    else []
  let recursive := o.recursive || c.defaults.recursive
  match Files.collect (← get).files w.lenient recursive o.paths lines with
  | .error fault => crash (.unusablePath fault)
  | .ok found =>
    note (found.notices.map noticeRecord)
    measure (·.completePhase "collect" (numeral found.paths.length ++ " paths"))
    return found.paths

/-- Whether a path belongs to a language and yet is no path that a file can have. -/
def isUnreadable (q : Scan.Request) (path : String) : Bool :=
  Files.Tree.hasNull path.toList &&
    match q.registry.resolve path (Overrides.normalize q.overrides) with
    | .ok (some _) => true
    | _ => false

/-- The paths of a share up to the first one that cannot be read. -/
def upToUnreadable (q : Scan.Request) : List String → List String
  | [] => []
  | path :: paths => path :: if isUnreadable q path then [] else upToUnreadable q paths

/-- Scans. -/
def scan (w : Surroundings) (o : ScanOptions) (c : Config) :
    Run (Except Scan.ScanError Scan.ScanResult) := do
  let paths ← collectPaths w o c
  note ((Registry.reassignments (builtinLanguages ++ c.definitions)).map reassignmentRecord)
  measure (·.count "language_overrides_count" o.overrides.length)
  let q : Scan.Request :=
    { paths
      registry := Registry.withBuiltins c.definitions
      overrides := o.overrides
      threads := c.threads (some o.threads)
      chunk := some c.performance.chunk
      exclude := o.exclude
      processors := w.processors }
  let s ← get
  let read := fileReader s.files
  if q.shares.flatten.any (isUnreadable q) then
    note (q.startRecord :: (q.shares.flatMap (upToUnreadable q)).flatMap (q.pathRecords read))
    crash (.unusablePath .nullCharacter)
  let (result, measured) := Scan.runMetered q read w.now s.measured
  measure fun _ => measured
  note (q.journal read s.threshold result)
  return result

/-- Saves a report in the format with a name. -/
def saveReport (r : Report) (path format : String) : Run Unit := do
  match r.saveFile (← get).files path (some format) with
  | .error e => failStore e
  | .ok files =>
    putFiles files
    note [⟨.info, "storage", "storage.report_saved",
      [("path", .text (Path.display path)), ("format", .text format),
       ("files", .int r.files.length)]⟩]

/-- Saves the report of a scan. -/
def exportReport (r : Report) (path : String) (format : Option String) (c : Config) :
    Run Unit := do
  measure (·.startPhase "export")
  let format := Format.choose format path c.defaults.format.name
  saveReport r path format
  measure (·.completePhase "export" format)

/-- The run ends.  Measurements are appended to their log if that is asked for. -/
def finish (c : Config) : Run Unit := do
  measure (·.endRun)
  let s ← get
  let m := s.measured.metrics
  let elapsed := s.measured.elapsed?.1
  note [stopRecord m elapsed, ⟨.debug, "cli", "cli.run_summary", m.summary elapsed⟩]
  if c.performance.metrics then
    let path := c.performance.metricsFile
    match m.appendTo s.files path with
    | .error e => failStore e
    | .ok files =>
      putFiles files
      note [⟨.info, "cli", "cli.metrics_written", [("path", .text path)]⟩]

/-- A file that failed, in a line. -/
def faultLine (f : ScanFault) : String :=
  "  ! " ++ f.path ++ " [" ++ f.kind.name ++ "] " ++ f.reason ++ "\n"

/-! ### The commands -/

/-- The lines per second. -/
def rate (total : Nat) (elapsed : Option Float) : Float :=
  match elapsed with
  | some t => if 0.0 < t then Decimal.ofRatio total 1 / t else 0.0
  | none => 0.0

/-- The last line of a count: its speed and its threads. -/
def speedLine (r : Report) (measured : Metered Float) : String :=
  let speed := Decimal.showFixedGrouped 0 (rate r.summary.tally.total measured.elapsed?.1)
  let threads := Decimal.showFixed 0 ((measured.metrics.values.get? "thread_count").getD 1.0)
  "\nPerformance: " ++ speed ++ " lines/sec (" ++ threads ++ " threads)"

/-- A text that is not empty. -/
def filled? (s : Option String) : Option String := s.filter fun t => !t.isEmpty

/-- Counts and prints. -/
def runCount (w : Surroundings) (g : Given) : Run Unit := do
  let o := ScanOptions.ofGiven g
  if o.paths.isEmpty && !o.fromInput then fail "no paths given (pass PATHS or --stdin)"
  let c ← loadConfig o.config o.metrics o.metricsFile
  begin "count" w.now w.processors o
  match ← scan w o c with
  | .error e =>
    if let .allFailed faults := e then complain (String.join (faults.map faultLine))
    fail e.message
  | .ok result =>
    let r := if o.checksum then result.report.signed else result.report
    let key := (g.text? "sort").bind Console.SortKey.ofName?
    print (Console.report key (g.isOn "details") result.faults r)
    let format := filled? (g.text? "format")
    let output := (filled? (g.text? "output")).or (format.map fun f => c.reportPath (some f))
    if let some path := output then
      exportReport r path format c
      print (ofString ("\nReport saved to: " ++ path))
    finish c
    print (speedLine r (← get).measured)

/-- Counts and saves a report. -/
def runReport (w : Surroundings) (g : Given) : Run Unit := do
  let o := ScanOptions.ofGiven g
  if o.paths.isEmpty then fail "no paths given"
  let c ← loadConfig o.config o.metrics o.metricsFile
  begin "report" w.now w.processors o
  match ← scan w o c with
  | .error e => fail e.message
  | .ok result =>
    let r := if o.checksum then result.report.signed else result.report
    let path := (g.text? "output").getD ""
    exportReport r path (g.text? "format") c
    finish c
    complain (String.join (result.faults.map faultLine))
    print (ofString ("Report generated successfully: " ++ path ++ " (" ++ numeral r.files.length ++
      " files, " ++ numeral r.unsupported.length ++ " unsupported, " ++
      numeral result.faults.length ++ " errors)"))

end LineCensus.Command
