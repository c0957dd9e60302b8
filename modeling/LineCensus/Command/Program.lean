import LineCensus.Command.Help
import LineCensus.Command.Reports

namespace LineCensus.Command

open Text

/-!
# The program

* `runCommand` — a command with its words.
* `runProgram` — the program with all its words.
* `Transcript` — what a run of the program leaves behind, and `transcript` that of some words.
-/

/-- What a command does with what it is given. -/
def perform (w : Surroundings) (name : String) (g : Given) : Run Unit :=
  match name with
  | "count" => runCount w g
  | "report" => runReport w g
  | "process" => runProcess w g
  | "compare" => runCompare w g
  | _ => runLanguages g

/-- Runs a command. -/
def runCommand (w : Surroundings) (name : String) (g : Grammar) (words : List String) :
    Run Unit := do
  match g.read (← get).files words with
  | .page _ => write g.page
  | .fault f => misuse g f
  | .given given => perform w name given

/-- Decides what is logged: everything if that is asked for, or else what the surroundings say. -/
def setLevel (w : Surroundings) (verbose : Bool) : Run Unit := do
  let name := if verbose then "DEBUG" else w.level.getD "WARNING"
  match Log.threshold? name with
  | some threshold => modify fun s => { s with threshold }
  | none => crash (.unknownLevel name)

/-- The page of the program that a switch asks for. -/
def programPageOf (s : Switch) : String := if s.name = "version" then versionPage else programPage

/-- Reads the switches in front of a command, and gives the words from the command on. -/
def readFront (words : List String) : Run (Bool × List String) := do
  match splitWords program false words with
  | .error f => misuse program f
  | .ok s =>
    match askedPage? s.switches with
    | some page =>
      write (programPageOf page)
      halt 0
    | none => return (s.switches.any fun o => o.1.name == "verbose", s.operands)

/-- Refuses a word that names no command.  One that begins with a dash is first read as a switch. -/
def refuseCommand (name : String) (words : List String) : Run Unit := do
  if isSwitchWord name then
    discard (readFront (name :: words))
  misuse program (.unknownCommand name (similarTo name (commands.map (·.1))))

/-- Runs the program. -/
def runProgram (w : Surroundings) (words : List String) : Run Unit := do
  if words.isEmpty then
    complain programPage
    halt 2
  let (verbose, rest) ← readFront words
  match rest with
  | [] => misuse program .missingCommand
  | name :: words =>
    match Table.get? commands name with
    | none => refuseCommand name words
    | some g =>
      setLevel w verbose
      runCommand w name g words

/-! ### Transcripts -/

/-- What a run of the program leaves behind. -/
structure Transcript where
  code : Nat
  crash : Option Crash
  session : Session

/-- The exit code of an end. -/
def Halt.code : Halt → Nat
  | .exit code => code
  | .crash _ => 1

/-- What nothing provided for, if that ended the program. -/
def Halt.crash? : Halt → Option Crash
  | .exit _ => none
  | .crash c => some c

/-- The run of the program with some words. -/
def transcript (w : Surroundings) (words : List String) : Transcript :=
  match (runProgram w words).run w.session with
  | (.ok _, s) => ⟨0, none, s⟩
  | (.error h, s) => ⟨h.code, h.crash?, s⟩

end LineCensus.Command
