import LineCensus.Report.Console
import LineCensus.Report.Storage

namespace LineCensus.Command

open Text

/-!
# Commands and what they take

* `Domain` — the values that may stand behind a switch.
* `Switch`, `Operand` — what may stand in the words of a command.
* `Grammar` — a command with all that it takes.
* `program` and the commands `count`, `report`, `process`, `compare`, `languages`.
-/

/-- The values that a switch takes.  A flag takes none, and neither does a switch that shows a page
    and ends the program. -/
inductive Domain where
  | page
  | flag
  | text
  | path
  | count
  | oneOf (names : List String)
  | override
  deriving DecidableEq, Repr

/-- Whether a value follows the switch. -/
def Domain.takesValue : Domain → Bool
  | .page | .flag => false
  | .text | .path | .count | .oneOf _ | .override => true

/-- The words for a value on a page of help. -/
def Domain.sign : Domain → String
  | .page | .flag => ""
  | .text => "TEXT"
  | .path => "PATH"
  | .count => "INTEGER RANGE"
  | .oneOf names => "[" ++ joinWith "|" names ++ "]"
  | .override => "EXT=LANG"

/-- A switch with its long name and, if it has one, its letter. -/
structure Switch where
  name : String
  letter : Option Char
  domain : Domain
  help : String
  required : Bool := false
  deriving DecidableEq, Repr

/-- The long name as it is written. -/
def Switch.long (s : Switch) : String := "--" ++ s.name

/-- The letter as it is written. -/
def dashed (letter : Char) : String := String.ofList ['-', letter]

/-- All names of the switch as they are written. -/
def Switch.names (s : Switch) : List String := (s.letter.map dashed).toList ++ [s.long]

/-- A word that is no switch: one, or all that remain. -/
inductive Operand where
  | one (name : String)
  | many (name : String)
  deriving DecidableEq, Repr

/-- An operand in a line of usage. -/
def Operand.sign : Operand → String
  | .one name => name
  | .many name => "[" ++ name ++ "]..."

/-- A command, its name with that of the program in front. -/
structure Grammar where
  name : String
  about : String
  switches : List Switch
  operands : List Operand
  deriving DecidableEq, Repr

/-! ### The program and its commands -/

/-- The switch for help. -/
def helpSwitch : Switch := ⟨"help", none, .page, "Show this message and exit.", false⟩

/-- The switch for the names of formats. -/
def formatSwitch (help : String) : Switch :=
  ⟨"format", some 'f', .oneOf (Format.all.map (·.name)), help, false⟩

/-- The switch for the order of tables. -/
def sortSwitch : Switch :=
  ⟨"sort", some 's', .oneOf (Console.SortKey.all.map (·.text)), "Sort tables by metric", false⟩

/-- The switch for a configuration. -/
def configSwitch : Switch := ⟨"config", none, .path, "TOML configuration file", false⟩

/-- The switches of the commands that scan. -/
def scanSwitches : List Switch :=
  [⟨"recursive", some 'r', .flag, "Recurse into directories", false⟩,
   configSwitch,
   ⟨"threads", some 'j', .count, "Worker threads (0 = auto)", false⟩,
   ⟨"checksum", none, .flag, "Attach a SHA-256 checksum to the report", false⟩,
   ⟨"ignore-preprocessor", none, .flag, "Leave preprocessor lines out of every count", false⟩,
   ⟨"language-override", none, .override, "Force a language for an extension or file path", false⟩,
   ⟨"enable-metrics", none, .flag, "Append run metrics to the metrics file", false⟩,
   ⟨"metrics-file", none, .text, "Metrics log path", false⟩]

/-- The program. -/
def program : Grammar where
  name := "slocscan"
  about := "slocscan: comment-aware source line counter."
  switches :=
    [⟨"version", none, .page, "Show the version and exit.", false⟩,
     ⟨"verbose", some 'v', .flag, "Verbose logging", false⟩, helpSwitch]
  operands := [.one "COMMAND", .many "ARGS"]

/-- Counts and prints. -/
def count : Grammar where
  name := "slocscan count"
  about := "Count lines in files and directories."
  switches := scanSwitches ++
    [⟨"stdin", none, .flag, "Read file paths from stdin", false⟩,
     formatSwitch "Report format; without -o the report goes to sloc-report.<format>",
     ⟨"output", some 'o', .text, "Save the report to this file", false⟩,
     sortSwitch,
     ⟨"details", none, .flag, "List every file and the unsupported files", false⟩, helpSwitch]
  operands := [.many "PATHS"]

/-- Counts and saves a report. -/
def report : Grammar where
  name := "slocscan report"
  about := "Count lines and write a report file."
  switches := scanSwitches ++
    [⟨"output", some 'o', .text, "Report file path", true⟩, formatSwitch "Report format",
     helpSwitch]
  operands := [.many "PATHS"]

/-- Prints a saved report. -/
def process : Grammar where
  name := "slocscan process"
  about := "Recompute summaries from a saved report without rescanning."
  switches :=
    [sortSwitch, ⟨"export", some 'e', .text, "Write the processed report here", false⟩,
     formatSwitch "Export format", ⟨"details", none, .flag, "List every file", false⟩, helpSwitch]
  operands := [.one "REPORT_PATH"]

/-- Compares two saved reports. -/
def compare : Grammar where
  name := "slocscan compare"
  about := "Compare two saved reports."
  switches :=
    [⟨"export", some 'e', .text, "Write the comparison here", false⟩, formatSwitch "Export format",
     helpSwitch]
  operands := [.one "OLD_REPORT", .one "NEW_REPORT"]

/-- Lists the languages. -/
def languages : Grammar where
  name := "slocscan languages"
  about := "List the languages the registry knows, with the extensions each one owns."
  switches := [configSwitch, helpSwitch]
  operands := []

/-- The commands of the program by name. -/
def commands : List (String × Grammar) :=
  [("compare", compare), ("count", count), ("languages", languages), ("process", process),
   ("report", report)]

end LineCensus.Command
