import LineCensus.Schema.Scalar

namespace LineCensus

/-!
# Files that could not be counted

* `FaultKind`, `ScanFault` — a file that a scan could not count, and why.
* `ScanFault.read` — such a file as a document spells it.
-/

/-- Why a file could not be counted. -/
inductive FaultKind where
  | path
  | encoding
  | unknownOverride
  | io
  deriving DecidableEq, Repr

/-- The name of a kind. -/
def FaultKind.name : FaultKind → String
  | .path => "path"
  | .encoding => "encoding"
  | .unknownOverride => "unknown_override"
  | .io => "io"

/-- The kinds. -/
def FaultKind.all : List FaultKind := [.path, .encoding, .unknownOverride, .io]

/-- A file that could not be counted. -/
structure ScanFault where
  path : String
  kind : FaultKind
  reason : String
  deriving DecidableEq, Repr

/-- The fault in one line, for a terminal. -/
def ScanFault.line (f : ScanFault) : String :=
  "  ! " ++ f.path ++ " [" ++ f.kind.name ++ "] " ++ f.reason

namespace ScanFault

open Schema

/-- The kind with a name. -/
def readKind : Value → Checked FaultKind
  | .text s =>
    match FaultKind.all.find? fun k => k.name == s with
    | some k => .ok k
    | none => refuse (.notOneOf "'path', 'encoding', 'unknown_override' or 'io'")
  | _ => refuse (.notOneOf "'path', 'encoding', 'unknown_override' or 'io'")

/-- A fault as a document spells it. -/
def read (t : Table Value) : Checked ScanFault :=
  (both (field t ["path"] text) <| both (field t ["kind"] readKind)
    (field t ["reason"] text)).map fun (path, kind, reason) => ⟨path, kind, reason⟩

end ScanFault

end LineCensus
