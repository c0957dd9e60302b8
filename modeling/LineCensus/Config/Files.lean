import LineCensus.Config.Reading
import LineCensus.Files.Tree
import LineCensus.Toml.Parser

namespace LineCensus

open Text Files

/-!
# Configurations in files

* `ConfigError` — why the file at a path gives no configuration.
* `Config.load` — the configuration of the file at a path, or the standard one.
-/

/-- Why the file at a path gives no configuration: it cannot be read, its bytes are no text, its
    text is no document or has too much of something, or the document is not one of a
    configuration. -/
inductive ConfigError where
  | unreadable (path : String) (fault : PathFault)
  | notUtf8 (flaw : IllFormed)
  | notToml (path : String)
  | excess (e : Excess)
  | misused (m : Language.Misuse)
  | issues (path : String) (found : List Schema.Issue)

/-- The first of some issues in words. -/
def firstIssue : List Schema.Issue → Letters
  | i :: _ => ofString (i.path ++ ": ") ++ i.complaint.text
  | [] => []

/-- The error in words; nothing for a file that could not be looked through at all. -/
def ConfigError.message? : ConfigError → Option Letters
  | .unreadable path fault => some (ofString ("cannot read " ++ path ++ ": " ++ fault.text))
  | .notToml path => some (ofString (path ++ ": <syntax error>"))
  | .issues path found => some (ofString (path ++ ": ") ++ firstIssue found)
  | .notUtf8 _ | .misused _ | .excess _ => none

namespace Config

/-- The configuration of a text. -/
def parse (path : String) (text : List Char) : Except ConfigError Config :=
  match Toml.parse text with
  | .error .malformed => .error (.notToml path)
  | .error (.excess e) => .error (.excess e)
  | .ok t =>
    match read t with
    | .error m => .error (.misused m)
    | .ok (.error found) => .error (.issues path found)
    | .ok (.ok c) => .ok c

/-- The configuration of the file at a path; lines may end in carriage returns. -/
def loadFile (files : Tree) (path : String) : Except ConfigError Config :=
  match files.readBytes (Path.display path).toList with
  | .error e => .error (.unreadable path e)
  | .ok bytes =>
    match decodeUtf8 bytes with
    | .error flaw => .error (.notUtf8 flaw)
    | .ok text => parse path (unifyNewlines text)

/-- The configuration of the file at a path, or the standard one, with the measuring asked for. -/
def load (files : Tree) (path : Option String) (metrics : Bool) (metricsFile : Option String) :
    Except ConfigError Config :=
  let loaded := match path with
    | some path => loadFile files path
    | none => .ok standard
  loaded.map fun c => c.withMetrics metrics metricsFile

end Config

end LineCensus
