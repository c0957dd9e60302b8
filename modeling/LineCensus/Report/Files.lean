import LineCensus.Report.Storage
import LineCensus.Files.Tree
import LineCensus.Metrics

namespace LineCensus

open Text Files

/-!
# Reports and comparisons in files

* `Format.detect` — the format that the name of a file stands for.
* `StoreError` — why a report or a comparison can be neither read nor written.
* `Report.loadFile`, `Report.saveFile`, `Comparison.saveFile` — reading and writing by path.
* `Metrics.appendTo` — appends the measurements of a run to a log.
-/

/-- The name of the format that the extension of a path stands for, or `fallback`. -/
def Format.detect (path fallback : String) : String :=
  let ext := String.ofList ((lower (Path.suffix path.toList)).dropWhile (· == '.'))
  if (Format.ofName? ext).isSome then ext else fallback

/-- Why a report or a comparison can be neither read nor written.  That a text has no bytes is found
    out when its file is open, so `unencodable` comes with the files in which that one is empty.  A
    comparison in JSON is `unserializable` before that, if it has surrogates. -/
inductive StoreError where
  | unreadable (path : String) (fault : PathFault)
  | unwritable (path : String) (fault : PathFault)
  | unencodable (files : Tree)
  | unserializable
  | malformed (m : Malformation)
  | unknownFormat (kind name : String)

/-- The error in words. -/
def StoreError.message : StoreError → Letters
  | .unreadable path fault => ofString ("Cannot read " ++ path ++ ": " ++ fault.text)
  | .unwritable path fault => ofString ("Cannot write " ++ path ++ ": " ++ fault.text)
  | .unencodable _ | .unserializable => "surrogates not allowed"
  | .malformed m => m.message
  | .unknownFormat kind name => ofString ("unsupported " ++ kind ++ " format: " ++ name)

/-- The format with a name, for a kind of document. -/
def Format.named (kind name : String) : Except StoreError Format :=
  match Format.ofName? name with
  | some f => .ok f
  | none => .error (.unknownFormat kind name)

/-- The name of the format to be used for a path: the one asked for, unless it is empty, or the one
    that the path stands for. -/
def Format.choose (asked : Option String) (path fallback : String) : String :=
  match asked with
  | some name => if name.isEmpty then Format.detect path fallback else name
  | none => Format.detect path fallback

/-- The report of a text in the format with a name. -/
def Report.loadNamed (format : String) (now : Moment) (text : Letters) :
    Except StoreError Report :=
  match Format.named "report" format with
  | .error e => .error e
  | .ok f => (Report.load f now text).mapError .malformed

/-- The text of a report in the format with a name. -/
def Report.dumpNamed (format : String) (r : Report) : Except StoreError Letters :=
  (Format.named "report" format).map r.dump

/-- The text of a comparison in the format with a name. -/
def Comparison.dumpNamed (format : String) (c : Comparison) : Except StoreError Letters :=
  match Format.named "comparison" format with
  | .error e => .error e
  | .ok f => (c.dump? f).elim (.error .unserializable) .ok

/-- The report in the file at a path. -/
def Report.loadFile (files : Tree) (path : String) (format : Option String) (now : Moment) :
    Except StoreError Report :=
  let shown := Path.display path
  match files.readBytes shown.toList with
  | .error e => .error (.unreadable shown e)
  | .ok bytes =>
    match storedText bytes with
    | .error m => .error (.malformed m)
    | .ok text => Report.loadNamed (Format.choose format path "json") now text

/-- Writes a text into the file at a path.  The file is empty if the text has no bytes. -/
def saveText (files : Tree) (path : String) (text : Letters) : Except StoreError Tree :=
  let shown := Path.display path
  match files.writeBytes shown.toList ((encode? text).getD []) with
  | .error fault => .error (.unwritable shown fault)
  | .ok files => if (encode? text).isNone then .error (.unencodable files) else .ok files

/-- Writes a report into the file at a path. -/
def Report.saveFile (files : Tree) (path : String) (format : Option String) (r : Report) :
    Except StoreError Tree :=
  (r.dumpNamed (Format.choose format path "json")).bind (saveText files path)

/-- Writes a comparison into the file at a path. -/
def Comparison.saveFile (files : Tree) (path : String) (format : Option String) (c : Comparison) :
    Except StoreError Tree :=
  (c.dumpNamed (Format.choose format path "json")).bind (saveText files path)

/-- Appends measurements to the log at a path. -/
def Metrics.appendTo {α : Type} [Gauge α] (m : Metrics α) (files : Tree) (path : String) :
    Except StoreError Tree :=
  (files.appendBytes path.toList (encodeUtf8 m.logText.toList)).mapError (.unwritable path)

end LineCensus
