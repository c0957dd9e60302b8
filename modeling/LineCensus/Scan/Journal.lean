import LineCensus.Log
import LineCensus.Scan.Basic

namespace LineCensus.Scan

open Log

/-!
# The log of a scan

* `Request.pathRecords` — what is logged about a path: an override that applies to it, and a block
  comment that its last line leaves open.
* `Request.journal` — the log of a whole scan.  Paths come share by share.
-/

/-- A number as a field of a record. -/
def countField (name : String) (n : Int) : String × Value := (name, .int n)

/-- A text as a field of a record. -/
def textField (name text : String) : String × Value := (name, .text text)

/-- The scan begins. -/
def Request.startRecord (q : Request) : Record :=
  ⟨.debug, "scanner", "scanner.started",
    [countField "files" (uniquePaths q.paths).length, countField "workers" q.workers,
     countField "partitions" q.shares.length]⟩

/-- The override that applies to a path, if it names a language. -/
def Request.overrideRecords (q : Request) (path : String) : List Record :=
  match Registry.overrideFor? (Overrides.normalize q.overrides) path with
  | none => []
  | some (key, name) =>
    match q.registry.get? name with
    | none => []
    | some c =>
      [⟨.debug, "registry", "registry.override_applied",
        [textField "path" path, textField "key" key, textField "language" c.language.name]⟩]

/-- The block comment that the lines of a file leave open. -/
def openBlockRecords (path : String) (l : Language) (exclude : Bool) (lines : List String) :
    List Record :=
  let last := Classifier.finalState .outside (Classifier.traceFile l exclude lines)
  if last.inBlock then
    [⟨.debug, "classifier", "classifier.unterminated_block",
      [textField "path" path, countField "depth" last.depth]⟩]
  else []

/-- What is logged about a path. -/
def Request.pathRecords (q : Request) (read : Reader) (path : String) : List Record :=
  let opened := match q.registry.resolve path (Overrides.normalize q.overrides) with
    | .ok (some c) =>
      match read path with
      | .ok lines => openBlockRecords path c.language q.exclude lines
      | .error _ => []
    | _ => []
  q.overrideRecords path ++ opened

/-- A file has failed. -/
def faultRecord (f : ScanFault) : Record :=
  ⟨.warning, "scanner", "scanner.file_failed",
    [textField "path" f.path, textField "kind" f.kind.name, textField "reason" f.reason]⟩

/-- The scan is done. -/
def ScanResult.record (r : ScanResult) : Record :=
  ⟨.info, "scanner", "scanner.finished",
    [countField "files" r.report.files.length, countField "unsupported" r.report.unsupported.length,
     countField "errors" r.faults.length, countField "languages" r.report.summary.languageCount]⟩

/-- The log of the work itself, if records without urgency are shown. -/
def Request.workRecords (q : Request) (read : Reader) (threshold : Nat) : List Record :=
  if Level.debug.passes threshold then
    q.startRecord :: q.shares.flatten.flatMap (q.pathRecords read)
  else []

/-- The log of a scan and its result, for a least urgency that is shown. -/
def Request.journal (q : Request) (read : Reader) (threshold : Nat)
    (result : Except ScanError ScanResult) : List Record :=
  let records := match result with
    | .error .emptyInput => []
    | .error (.allFailed faults) => q.workRecords read threshold ++ faults.map faultRecord
    | .ok r => q.workRecords read threshold ++ r.faults.map faultRecord ++ [r.record]
  records.filter (·.passes threshold)

end LineCensus.Scan
