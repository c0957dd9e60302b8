import LineCensus.Command.Words
import LineCensus.Files.Tree

namespace LineCensus.Command

open Text

/-!
# What a command is given

* `wholeNumber?` — a number as it is written on a command line.
* `Given` — the values of a command's switches and its operands.
* `Reply` — a page that was asked for, a fault, or what the command is given.
* `Grammar.read` — reads the words of a command.

A page that is asked for comes first.  Then switches are read in the order in which they stand, then
operands, and then it is seen what is missing.
-/

/-! ### Numbers -/

/-- The value of a decimal digit of any script. -/
def decimalValue? (c : Char) : Option Nat :=
  (digitBlocks.find? fun b => b ≤ c.toNat && c.toNat ≤ b + 9).map fun b => c.toNat - b

/-- The values of digits with single underscores between them, where a digit has just been read. -/
def moreValues? : List Char → Option (List Nat)
  | [] => some []
  | '_' :: c :: s => do
    let d ← decimalValue? c
    return d :: (← moreValues? s)
  | c :: s => do
    let d ← decimalValue? c
    return d :: (← moreValues? s)

/-- A number without a sign.  It may not have too many digits. -/
def magnitude? : List Char → Option Nat
  | [] => none
  | c :: s => do
    let d ← decimalValue? c
    let values := d :: (← moreValues? s)
    if maxDigits < values.length then none
    return values.foldl (fun n d => n * 10 + d) 0

/-- A number with an optional sign, with white space around it. -/
def wholeNumber? (word : String) : Option Int :=
  match trimBy isWhiteSpace word.toList with
  | '-' :: s => (magnitude? s).map fun n => -(n : Int)
  | '+' :: s => (magnitude? s).map fun n => (n : Int)
  | s => (magnitude? s).map fun n => (n : Int)

/-! ### Values -/

/-- The value of a switch that is there. -/
inductive Setting where
  | on
  | text (s : String)
  | number (n : Nat)
  | overrides (pairs : List (String × String))
  deriving DecidableEq, Repr

/-- The last one of some values, or nothing. -/
def lastText (values : List String) : String := values.getLast?.getD ""

/-- A number of at least zero. -/
def readNumber (word : String) : Except ValueProblem Setting :=
  match wholeNumber? word with
  | none => .error (.notNumber word)
  | some n => if n < 0 then .error (.negative n) else .ok (.number n.toNat)

/-- The value of a switch from all values that stand behind it.  Overrides are put together; of any
    other values the last counts. -/
def Domain.read (d : Domain) (files : Files.Tree) (values : List String) :
    Except ValueProblem Setting :=
  match d with
  | .page | .flag => .ok .on
  | .text => .ok (.text (lastText values))
  | .path =>
    let word := lastText values
    if Files.Tree.hasNull word.toList then .error .noPath
    else if files.has word.toList && !files.mayRead word.toList then
      .error (.notReadable "Path" word)
    else .ok (.text word)
  | .count => readNumber (lastText values)
  | .oneOf names =>
    let word := lastText values
    if names.contains word then .ok (.text word) else .error (.notOneOf word names)
  | .override =>
    match values.mapM Override.parse with
    | .ok pairs => .ok (.overrides (Table.ofList pairs))
    | .error problem => .error (.notOverride problem)

/-- The values of switches by their names, and operands. -/
structure Given where
  settings : Table Setting := []
  words : List String := []

namespace Given

/-- Whether a flag is given. -/
def isOn (g : Given) (name : String) : Bool := g.settings.has name

/-- The text of a switch. -/
def text? (g : Given) (name : String) : Option String :=
  match g.settings.get? name with
  | some (.text s) => some s
  | _ => none

/-- The number of a switch, or zero. -/
def number (g : Given) (name : String) : Nat :=
  match g.settings.get? name with
  | some (.number n) => n
  | _ => 0

/-- The overrides of a switch. -/
def overrides (g : Given) (name : String) : List (String × String) :=
  match g.settings.get? name with
  | some (.overrides pairs) => pairs
  | _ => []

/-- An operand by its place. -/
def word (g : Given) (i : Nat) : String := g.words[i]?.getD ""

end Given

/-! ### Reading -/

/-- What comes of the words of a command. -/
inductive Reply where
  | page (s : Switch)
  | fault (f : UsageFault)
  | given (g : Given)

/-- The switches that occur, each once, in the order in which they first stand. -/
def distinct (found : Occurrences) : List Switch :=
  found.foldl (fun seen o => if seen.contains o.1 then seen else seen ++ [o.1]) []

/-- Reads the values of a switch. -/
def readSwitch (files : Files.Tree) (found : Occurrences) (s : Switch) :
    Except UsageFault (String × Setting) :=
  match s.domain.read files ((found.filter (·.1 == s)).filterMap (·.2)) with
  | .ok v => .ok (s.name, v)
  | .error problem => .error (.badSwitch s problem)

/-- Reads operands that each name a file, and gives those that are left over. -/
def readFiles (files : Files.Tree) : List Operand → List String → Except UsageFault (List String)
  | [], words => .ok words
  | .many _ :: _, _ => .ok []
  | .one name :: _, [] => .error (.missingOperand name)
  | .one name :: operands, word :: words =>
    match files.nodeAt word.toList with
    | .error .nullCharacter => .error (.badOperand name .noPath)
    | .error _ => .error (.badOperand name (.noFile word))
    | .ok (.directory _ _) => .error (.badOperand name (.directory word))
    | .ok (.file access _) =>
      if access.read then readFiles files operands words
      else .error (.badOperand name (.notReadable "File" word))

/-- The first switch that has to be there and is not. -/
def Grammar.missing? (g : Grammar) (found : List Switch) : Option Switch :=
  g.switches.find? fun s => s.required && !found.contains s

/-- Reads the switches and operands of a command. -/
def Grammar.readSplit (g : Grammar) (files : Files.Tree) (s : Split) : Except UsageFault Given := do
  -- Values are read first, then operands; only then is something missing or left over.
  let found := distinct s.switches
  let settings ← found.mapM (readSwitch files s.switches)
  let extra ← readFiles files g.operands s.operands
  match g.missing? found with
  | some s => .error (.missingSwitch s)
  | none => if extra.isEmpty then .ok ⟨settings, s.operands⟩ else .error (.extraWords extra)

/-- The switch for a page that is asked for first. -/
def askedPage? (found : Occurrences) : Option Switch :=
  (found.map (·.1)).find? fun s => s.domain = .page

/-- Reads the words of a command. -/
def Grammar.read (g : Grammar) (files : Files.Tree) (words : List String) : Reply :=
  match splitWords g true words with
  | .error f => .fault f
  | .ok s =>
    match askedPage? s.switches with
    | some page => .page page
    | none =>
      match g.readSplit files s with
      | .error f => .fault f
      | .ok given => .given given

end LineCensus.Command
