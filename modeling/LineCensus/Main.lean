import LineCensus.Command.Program
import LineCensus.Json.Printer
import Std.Time.DateTime.Timestamp

namespace LineCensus

/-!
# The executable

* `readEntry`, `readPath` — a file or directory as the program sees it.
* `surroundings` — what the program finds when it starts.
* `saveChanges`, `printTranscript` — what a run of the program leaves behind.

All decisions are those of `Command.transcript`.  The program sees the files below the working
directory and at the paths that it is given, as they are when it starts; log records go where errors
go, one on a line.
-/

open Files

/-- A file with its bytes.  One that cannot be read may not be read. -/
def readContent (bytes : IO ByteArray) : IO Node := do
  try return .file {} (← bytes).toList
  catch _ => return .file { read := false } []

/-- A file or a directory with its name.  A directory that cannot be listed may not be listed. -/
partial def readEntry (e : IO.FS.DirEntry) : IO (String × Node) := do
  if ← e.path.isDir then
    try return (e.fileName, .directory {} (← (← e.path.readDir).toList.mapM readEntry))
    catch _ => return (e.fileName, .directory { read := false } [])
  else return (e.fileName, ← readContent (IO.FS.readBinFile e.path))

/-- What is at a path, with the names that lead there; nothing if nothing is there. -/
def readPath (path : String) : IO (Option (List String × Node)) := do
  try
    let real ← IO.FS.realPath path
    let names := real.components.filter (!·.isEmpty)
    if ← real.isDir then
      return some (names, .directory {} (← (← real.readDir).toList.mapM readEntry))
    else return some (names, ← readContent (IO.FS.readBinFile real))
  catch _ => return none

/-- The part of a path that can be looked up: the directories in front of the first wildcard. -/
def fixedPart (path : String) : String :=
  let parts := (Text.splitAtChar '/' path.toList).takeWhile fun p => !hasMagic p
  String.ofList (if parts = [[]] then ['/'] else Path.joinParts parts)

/-- The directory of a path. -/
def directoryOf (path : String) : String :=
  match String.ofList (splitPath path.toList).1 with
  | "" => "."
  | dir => dir

/-- The tree with the directory of a path, and with what is at the path, if these are outside of the
    working directory. -/
def withPath (t : Tree) (path : String) : IO Tree := do
  let add (t : Tree) (names : List String) (n : Node) : Tree :=
    if t.work.isPrefixOf names then t else { t with root := Node.put n names t.root }
  let mut t := t
  if let some (names, .directory access _) ← readPath (directoryOf path) then
    if (t.root.get? names).isNone then t := add t names (.directory access [])
  if let some (names, n) ← readPath (fixedPart path) then t := add t names n
  return t

/-- The files below the working directory and at some paths. -/
def workingTree (paths : List String) : IO Tree := do
  let work := (← IO.currentDir).components.filter (!·.isEmpty)
  let entries ← (← (← IO.currentDir).readDir).toList.mapM readEntry
  let t : Tree := ⟨Node.put (.directory {} entries) work .empty, work⟩
  paths.foldlM withPath t

/-- The current moment in UTC. -/
def currentMoment : IO Moment := do
  let nanos : Int := (← Std.Time.Timestamp.now).toNanosecondsSinceUnixEpoch.val
  match Moment.ofUnix? (nanos / 1000000000) (nanos % 1000000000 / 1000).toNat 0 with
  | some m => return m
  | none => throw (IO.userError "the clock is set to a year without four digits")

/-- The number of processors. -/
def processorCount : IO Nat := do
  try
    let lines := (← IO.FS.lines "/proc/cpuinfo").toList
    return Nat.max 1 (lines.filter fun l => l.startsWith "processor").length
  catch _ => return 1

/-- The text on standard input. -/
def standardInput : IO String := do
  (← IO.getStdin).readToEnd

/-- What the program finds when it starts.  Standard input is read only if it is asked for. -/
def surroundings (words : List String) : IO Command.Surroundings := do
  let input ← if words.contains "--stdin" then standardInput else pure ""
  let lines := (Text.splitAtChar '\n' input.toList).map fun l => String.ofList (Text.trim l)
  let values := words.map fun w => String.ofList ((w.toList.dropWhile (· != '=')).drop 1)
  return {
    files := ← workingTree ((words ++ values ++ lines).filter fun p => !p.isEmpty)
    lenient := false
    input
    now := ← currentMoment
    clock := ⟨0.0, 0.0⟩
    level := ← IO.getEnv "SLOCSCAN_LOG_LEVEL"
    processors := ← processorCount }

/-- Writes the files that are new or changed. -/
def saveChanges (old new : Tree) : IO Unit := do
  let before := Table.ofList ((old.root.contents []).map fun f => (Text.joinWith "/" f.1, f.2))
  for (names, bytes) in new.root.contents [] do
    let path := Text.joinWith "/" names
    if before.get? path != some bytes then
      IO.FS.writeBinFile ("/" ++ path) (ByteArray.mk bytes.toArray)

/-- Writes what a run has to say. -/
def printTranscript (t : Command.Transcript) : IO Unit := do
  for r in t.session.log do
    IO.eprintln (Text.escapeSurrogates (Json.write .compact r.toValue.spelled))
  IO.print t.session.out
  IO.eprint t.session.err
  if t.crash.isSome then IO.eprintln "Something went wrong that nothing provides for."

end LineCensus

/-- Runs the program with the words of its command line. -/
def main (words : List String) : IO UInt32 := do
  let w ← LineCensus.surroundings words
  let t := LineCensus.Command.transcript w words
  LineCensus.saveChanges w.files t.session.files
  LineCensus.printTranscript t
  return t.code.toUInt32
