import LineCensus.Command.Grammar
import LineCensus.Files.Tree
import LineCensus.Override
import LineCensus.Text.Quoted

namespace LineCensus.Command

open Text

/-!
# Wrong usage

* `ValueProblem` — why a word is no value of a switch or an operand.
* `UsageFault` — what is wrong with the words of a command.
* `Grammar.usage` — the line of usage.
* `UsageFault.text` — the fault with the line of usage in front, unless the fault is that a switch
  and its value do not fit together.
-/

/-- Why a word is no value. -/
inductive ValueProblem where
  | notNumber (word : String)
  | negative (n : Int)
  | notOneOf (word : String) (names : List String)
  | noFile (path : String)
  | directory (path : String)
  | notReadable (kind path : String)
  | notOverride (problem : String)
  | noPath
  deriving DecidableEq, Repr

/-- The problem in words. -/
def ValueProblem.message : ValueProblem → String
  | .notNumber word => quoted word ++ " is not a valid integer range."
  | .negative n => intNumeral n ++ " is not in the range x>=0."
  | .notOneOf word names =>
    quoted word ++ " is not one of " ++ joinWith ", " (names.map quoted) ++ "."
  | .noFile path => "File " ++ quoted path ++ " does not exist."
  | .directory path => "File " ++ quoted path ++ " is a directory."
  | .notReadable kind path => kind ++ " " ++ quoted path ++ " is not readable."
  | .notOverride problem => problem
  | .noPath => Files.PathFault.nullCharacter.text

/-- What is wrong with the words of a command. -/
inductive UsageFault where
  | unknownSwitch (name : String) (similar : List String)
  | unwantedValue (name : String)
  | missingValue (name : String)
  | missingSwitch (s : Switch)
  | missingOperand (name : String)
  | badSwitch (s : Switch) (problem : ValueProblem)
  | badOperand (name : String) (problem : ValueProblem)
  | extraWords (words : List String)
  | missingCommand
  | unknownCommand (name : String) (similar : List String)
  deriving DecidableEq, Repr

/-- A word that should be a path is none.  Nothing provides for that. -/
def UsageFault.isUnforeseen : UsageFault → Bool
  | .badSwitch _ problem => problem == .noPath
  | .badOperand _ problem => problem == .noPath
  | _ => false

/-- A text between single marks. -/
def marked (s : String) : String := "'" ++ s ++ "'"

/-- All names of a switch. -/
def Switch.label (s : Switch) : String := joinWith " / " (s.names.map marked)

/-- A question whether similar names were meant. -/
def suggestion : List String → String
  | [] => ""
  | [name] => " Did you mean " ++ quoted name ++ "?"
  | names => " (Did you mean one of: " ++ joinWith ", " (names.map quoted) ++ "?)"

/-- The fault in words. -/
def UsageFault.message : UsageFault → String
  | .unknownSwitch name similar => "No such option " ++ quoted name ++ "." ++ suggestion similar
  | .unwantedValue name => "Option " ++ quoted name ++ " does not take a value."
  | .missingValue name => "Option " ++ quoted name ++ " requires an argument."
  | .missingSwitch s => "Missing option " ++ s.label ++ "."
  | .missingOperand name => "Missing argument " ++ marked name ++ "."
  | .badSwitch s problem => "Invalid value for " ++ s.label ++ ": " ++ problem.message
  | .badOperand name problem => "Invalid value for " ++ marked name ++ ": " ++ problem.message
  | .extraWords words =>
    (if words.length = 1 then "Got unexpected extra argument (" else
      "Got unexpected extra arguments (") ++ joinWith " " words ++ ")"
  | .missingCommand => "Missing command."
  | .unknownCommand name similar => "No such command " ++ quoted name ++ "." ++ suggestion similar

/-- The line of usage. -/
def Grammar.usage (g : Grammar) : String :=
  joinWith " " (["Usage:", g.name, "[OPTIONS]"] ++ g.operands.map Operand.sign)

/-- Whether the line of usage is shown with a fault. -/
def UsageFault.showsUsage : UsageFault → Bool
  | .unwantedValue _ | .missingValue _ => false
  | _ => true

/-- The fault as it is printed. -/
def UsageFault.text (g : Grammar) (f : UsageFault) : String :=
  let usage := if f.showsUsage then
      g.usage ++ "\nTry '" ++ g.name ++ " --help' for help.\n\n"
    else ""
  usage ++ "Error: " ++ f.message ++ "\n"

end LineCensus.Command
