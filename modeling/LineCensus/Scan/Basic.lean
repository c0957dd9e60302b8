import LineCensus.Scan.Fault
import LineCensus.Classifier.Basic
import LineCensus.Registry
import LineCensus.Report.Basic
import LineCensus.Metrics

namespace LineCensus.Scan

open Text

/-!
# Scanning files

* `ReadFailure`, `Reader` — how a file is read, and why it may fail.
* `Outcome`, `outcomeOf` — what one path comes to.
* `partitions` — the shares into which the paths are cut, and `Buffer` what a share comes to.
* `run` — the report of a list of paths, with the files that failed.  It depends on the set of
  normalized paths only.
* `runMetered` — the same with measurements.
-/

/-- Why a file could not be read. -/
inductive ReadFailure where
  | path (reason : String)
  | encoding (reason : String)
  | io (reason : String)
  deriving DecidableEq, Repr

/-- The lines of the file at a path, or why there are none. -/
abbrev Reader := String → Except ReadFailure (List String)

/-- What a scan is asked to do. -/
structure Request where
  paths : List String
  registry : Registry
  overrides : List (String × String) := []
  threads : Option Int := none
  chunk : Option Int := none
  exclude : Bool := false
  processors : Nat := 4

/-! ### One path -/

/-- What one path comes to. -/
inductive Outcome where
  | counted (f : FileTally)
  | unsupported (path : Letters)
  | failed (f : ScanFault)

/-- The fault of a file that could not be read. -/
def faultOf (path : String) : ReadFailure → ScanFault
  | .path reason => ⟨path, .path, reason⟩
  | .encoding reason => ⟨path, .encoding, reason⟩
  | .io reason => ⟨path, .io, reason⟩

/-- What a path comes to.  The file is read only if there is a language for it. -/
def outcomeOf (registry : Registry) (overrides : Overrides) (exclude : Bool) (read : Reader)
    (path : String) : Outcome :=
  match registry.resolve path overrides with
  | .error u => .failed ⟨path, .unknownOverride, u.message⟩
  | .ok none => .unsupported path
  | .ok (some c) =>
    match read path with
    | .error e => .failed (faultOf path e)
    | .ok lines => .counted (Classifier.tallyFile path c.language exclude lines)

/-! ### Shares -/

/-- The number of workers: as many as asked for, or as there are processors, but no more than paths
    and at least one. -/
def workers (threads : Option Int) (processors n : Nat) : Nat :=
  let wanted : Int := match threads with
    | some t => if t = 0 then processors else t
    | none => processors
  if wanted < 1 then 1 else if wanted.toNat < n then wanted.toNat else n

/-- The number of shares: one for every worker, and more if shares would grow beyond the chunk
    size. -/
def shareCount (workers : Nat) (chunk : Option Int) (n : Nat) : Nat :=
  match chunk with
  | none => workers
  | some c =>
    if c = 0 then workers
    else
      -- The quotient is rounded up.
      let needed : Int := -((-(n : Int)).fdiv c)
      if needed < workers then workers else needed.toNat

/-- Every `n`-th path from the `i`-th on. -/
def stride (n i : Nat) (paths : List String) : List String :=
  (paths.zipIdx.filter fun p => p.2 % n == i).map (·.1)

/-- The paths dealt out to `n` shares. -/
def partitions (n : Nat) (paths : List String) : List (List String) :=
  (List.range n).map fun i => stride n i paths

/-- What a share of the paths comes to. -/
structure Buffer where
  files : List FileTally := []
  unsupported : List Letters := []
  faults : List ScanFault := []

/-- Adds an outcome. -/
def Buffer.add (b : Buffer) : Outcome → Buffer
  | .counted f => { b with files := b.files ++ [f] }
  | .unsupported p => { b with unsupported := b.unsupported ++ [p] }
  | .failed f => { b with faults := b.faults ++ [f] }

/-- What a share comes to, path by path. -/
def scanShare (outcome : String → Outcome) (paths : List String) : Buffer :=
  paths.foldl (fun b p => b.add (outcome p)) {}

/-- The shares put together; faults are in the order of their paths. -/
def merge (buffers : List Buffer) : Buffer where
  files := buffers.flatMap (·.files)
  unsupported := buffers.flatMap (·.unsupported)
  faults := sortOn (·.path) (buffers.flatMap (·.faults))

/-! ### Whole scans -/

/-- The distinct normalized paths in order. -/
def uniquePaths (paths : List String) : List String := sorted (dedup (paths.map Path.normalize))

/-- Why a scan gives no report. -/
inductive ScanError where
  | emptyInput
  | allFailed (faults : List ScanFault)
  deriving DecidableEq

/-- The error in words. -/
def ScanError.message : ScanError → String
  | .emptyInput => "no input files to scan"
  | .allFailed faults => "All " ++ numeral faults.length ++ " input file(s) failed"

/-- A report and the files that are not in it because they failed. -/
structure ScanResult where
  report : Report
  faults : List ScanFault

/-- The outcome of a path of the request. -/
def Request.outcome (q : Request) (read : Reader) : String → Outcome :=
  outcomeOf q.registry (Overrides.normalize q.overrides) q.exclude read

/-- The workers that a request uses. -/
def Request.workers (q : Request) : Nat :=
  Scan.workers q.threads q.processors (uniquePaths q.paths).length

/-- The shares that a request is cut into. -/
def Request.shares (q : Request) : List (List String) :=
  let unique := uniquePaths q.paths
  partitions (shareCount q.workers q.chunk unique.length) unique

/-- What all paths come to. -/
def Request.merged (q : Request) (read : Reader) : Buffer :=
  merge (q.shares.map (scanShare (q.outcome read)))

/-- The report of what `n` paths came to. -/
def conclude (now : Moment) (n : Nat) (b : Buffer) : Except ScanError ScanResult :=
  if b.faults.length = n then .error (.allFailed b.faults)
  else .ok ⟨Report.build b.files b.unsupported now, b.faults⟩

/-- Scans the paths of a request. -/
def run (q : Request) (read : Reader) (now : Moment) : Except ScanError ScanResult :=
  let n := (uniquePaths q.paths).length
  if n = 0 then .error .emptyInput else conclude now n (q.merged read)

/-! ### Measurements -/

section Measured

variable {α : Type} [Gauge α]

/-- Records what the scan is about to do. -/
def noteStart (m : Metered α) (workers shares paths : Nat) : Metered α :=
  (((m.startPhase "scan").count "thread_count" workers).count "partition_count" shares).count
    "total_files_to_process" paths

/-- Records what became of the files. -/
def noteFiles (m : Metered α) (b : Buffer) : Metered α :=
  let m := ((m.count "files_processed_successfully" b.files.length).count "unsupported_files"
    b.unsupported.length).count "file_errors" b.faults.length
  b.faults.foldl (fun m f => m.tell fun x =>
    x.increment ("file_errors_" ++ f.kind.name) (Gauge.ofNat 1)) m

/-- Records the lines per second, if the scan took any time. -/
def noteThroughput (m : Metered α) (total : Nat) : Metered α :=
  match (m.metrics.phases.find? fun p => p.name == "scan").bind Phase.duration? with
  | some t =>
    if Gauge.isZero t then m
    else m.tell fun x =>
      x.record "overall_throughput_lines_per_sec" (Gauge.div (Gauge.ofNat total) t)
  | none => m

/-- Records the lines of the report. -/
def noteReport (m : Metered α) (files : Nat) (r : Report) : Metered α :=
  let t := r.summary.tally
  let m := (((m.count "total_lines_processed" t.total).count "logical_lines_processed"
    t.logical).count "comment_lines_processed" t.comment).count "empty_lines_processed" t.empty
  noteThroughput (m.completePhase "scan" (numeral files ++ " files")) t.total

/-- Scans the paths of a request and takes measurements. -/
def runMetered (q : Request) (read : Reader) (now : Moment) (m : Metered α) :
    Except ScanError ScanResult × Metered α :=
  let n := (uniquePaths q.paths).length
  if n = 0 then (.error .emptyInput, m)
  else
    let b := q.merged read
    let m := noteFiles (noteStart m q.workers q.shares.length n) b
    match conclude now n b with
    | .error e => (.error e, m.failPhase "scan" "all files failed")
    | .ok r => (.ok r, noteReport m b.files.length r.report)

end Measured

end LineCensus.Scan
