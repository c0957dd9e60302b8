import LineCensus.Command.Usage
import LineCensus.Files.Tree
import LineCensus.Language.Reading
import LineCensus.Log
import LineCensus.Metrics.Document
import LineCensus.Report.Files
import LineCensus.Text.Quoted

namespace LineCensus.Command

open Text

/-!
# Sessions

* `Surroundings` — what the program finds when it starts.
* `Session` — the files, the measurements, and all that was written so far.
* `Halt` — an early end: with an exit code, or because of something that nothing provides for.
* `Run` — a part of the program.  An early end keeps what was written before it.
* `print`, `complain`, `note`, `fail`, `failStore` — writing, logging and giving up.
-/

/-- What the program finds when it starts.  Whether patterns of paths are read in the `lenient` way
    depends on the release of the library. -/
structure Surroundings where
  files : Files.Tree
  lenient : Bool
  input : String
  now : Moment
  clock : Clock Float
  level : Option String
  processors : Nat

/-- What has happened so far. -/
structure Session where
  files : Files.Tree
  measured : Metered Float
  threshold : Nat
  out : String
  err : String
  log : List Log.Record

/-- What nothing provides for. -/
inductive Crash where
  | misusedConfig (m : Language.Misuse)
  | undecodableConfig
  | unknownLevel (name : String)
  | unusablePath (fault : Files.PathFault)
  | excess (e : Excess)
  | strayReturn
  | unencodable
  | unserializable
  deriving DecidableEq

/-- An early end. -/
inductive Halt where
  | exit (code : Nat)
  | crash (c : Crash)
  deriving DecidableEq

/-- A part of the program. -/
abbrev Run (α : Type) := ExceptT Halt (StateM Session) α

/-- The session at the start. -/
def Surroundings.session (w : Surroundings) : Session where
  files := w.files
  measured := ⟨{ operation := "" }, w.clock⟩
  threshold := Log.Level.warning.rank
  out := ""
  err := ""
  log := []

/-- Writes a text. -/
def write (s : String) : Run Unit := modify fun t => { t with out := t.out ++ s }

/-- Writes a text where errors go. -/
def complain (s : String) : Run Unit := modify fun t => { t with err := t.err ++ s }

/-- Ends the program. -/
def halt {α : Type} (code : Nat) : Run α := throw (.exit code)

/-- Ends the program in a way that nothing provides for. -/
def crash {α : Type} (c : Crash) : Run α := throw (.crash c)

/-- Writes a line.  A text with surrogates cannot be written. -/
def print (s : Letters) : Run Unit :=
  match string? s with
  | some s => write (s ++ "\n")
  | none => crash .unencodable

/-- Says why the program fails, and ends it.  Surrogates are escaped where errors go. -/
def fail {α : Type} (message : Letters) : Run α := do
  complain ("Error: " ++ escapeSurrogates message ++ "\n")
  halt 1

/-- Says what is wrong with the words of a command, and ends the program. -/
def misuse {α : Type} (g : Grammar) (f : UsageFault) : Run α := do
  if f.isUnforeseen then crash (.unusablePath .nullCharacter)
  complain (f.text g)
  halt 2

/-- What nothing provides for in reading or writing a report. -/
def StoreError.crash? : StoreError → Option Crash
  | .unreadable _ .nullCharacter => some (.unusablePath .nullCharacter)
  | .unwritable _ .nullCharacter => some (.unusablePath .nullCharacter)
  | .malformed (.sheet .strayReturn) => some .strayReturn
  | .malformed .surrogates | .unencodable _ => some .unencodable
  | .unserializable => some .unserializable
  | .malformed (.excess e) => some (.excess e)
  | _ => none

/-- Logs those of some records that are shown. -/
def note (records : List Log.Record) : Run Unit :=
  modify fun t => { t with log := t.log ++ records.filter (·.passes t.threshold) }

/-- Takes measurements. -/
def measure (f : Metered Float → Metered Float) : Run Unit :=
  modify fun t => { t with measured := f t.measured }

/-- Replaces the files. -/
def putFiles (files : Files.Tree) : Run Unit := modify fun t => { t with files }

/-- Ends the program because a report was not read or written. -/
def failStore {α : Type} (e : StoreError) : Run α := do
  if let .unencodable files := e then putFiles files
  match StoreError.crash? e with
  | some c => crash c
  | none => fail e.message

end LineCensus.Command
