import LineCensus.Command.Usage
import LineCensus.Text.Similar

namespace LineCensus.Command

open Text

/-!
# The words of a command

* `readWord` — the switches in one word.
* `Split` — the switches of a command in order, and its operands.
* `splitWords` — the words of a command, taken apart.

The word `--` ends the switches.  Where operands may not stand between switches, the first operand
ends them too.
-/

/-- Switches in the order in which they stand, each with its value if it takes one. -/
abbrev Occurrences := List (Switch × Option String)

/-- The switches in a word, and the last of them as it was written if its value is still to come. -/
structure WordSwitches where
  done : Occurrences
  waiting : Option (Switch × String)

/-- The switch with a long name. -/
def Grammar.long? (g : Grammar) (name : String) : Option Switch :=
  g.switches.find? fun s => s.long == name

/-- The switch with a letter. -/
def Grammar.letter? (g : Grammar) (c : Char) : Option Switch :=
  g.switches.find? fun s => s.letter == some c

/-- Reads a run of letters.  The value of a letter that takes one is what follows it. -/
def readLetters (g : Grammar) : List Char → Except UsageFault WordSwitches
  | [] => .ok ⟨[], none⟩
  | c :: rest =>
    match g.letter? c with
    | none => .error (.unknownSwitch (dashed c) [])
    | some s =>
      if s.domain.takesValue then
        if rest.isEmpty then .ok ⟨[], some (s, dashed c)⟩
        else .ok ⟨[(s, some (String.ofList rest))], none⟩
      else (readLetters g rest).map fun w => ⟨(s, none) :: w.done, w.waiting⟩

/-- Reads a switch written out, with the value behind its equals sign if there is one. -/
def readLong (s : Switch) (name : String) (value : Option String) :
    Except UsageFault WordSwitches :=
  match s.domain.takesValue, value with
  | true, some v => .ok ⟨[(s, some v)], none⟩
  | true, none => .ok ⟨[], some (s, name)⟩
  | false, some _ => .error (.unwantedValue name)
  | false, none => .ok ⟨[(s, none)], none⟩

/-- A word at its first equals sign. -/
def cutAtEquals (word : String) : String × Option String :=
  match splitAtChar '=' word.toList with
  | name :: piece :: pieces =>
    (String.ofList name, some (joinWith "=" ((piece :: pieces).map String.ofList)))
  | _ => (word, none)

/-- Reads the switches in a word that begins with a dash. -/
def readWord (g : Grammar) (word : String) : Except UsageFault WordSwitches :=
  let (name, value) := cutAtEquals word
  match g.long? name with
  | some s => readLong s name value
  | none =>
    match word.toList with
    | '-' :: '-' :: _ => .error (.unknownSwitch name (similarTo name (g.switches.map (·.long))))
    | _ :: letters => readLetters g letters
    | [] => .ok ⟨[], none⟩

/-- Whether a word holds switches. -/
def isSwitchWord (word : String) : Bool :=
  match word.toList with
  | '-' :: _ :: _ => true
  | _ => false

/-- The words of a command, taken apart. -/
structure Split where
  switches : Occurrences := []
  operands : List String := []

/-- Puts switches in front. -/
def Split.withSwitches (found : Occurrences) (s : Split) : Split :=
  { s with switches := found ++ s.switches }

/-- Takes words apart; with `mixed`, operands may stand between switches. -/
def splitWords (g : Grammar) (mixed : Bool) : List String → Except UsageFault Split
  | [] => .ok {}
  | word :: words =>
    if word = "--" then .ok { operands := words }
    else if isSwitchWord word then
      match readWord g word with
      | .error f => .error f
      | .ok ⟨done, none⟩ => (splitWords g mixed words).map (Split.withSwitches done)
      | .ok ⟨done, some (s, name)⟩ =>
        -- The next word is the value, even if it looks like a switch.
        match words with
        | [] => .error (.missingValue name)
        | value :: words =>
          (splitWords g mixed words).map (Split.withSwitches (done ++ [(s, some value)]))
    else if mixed then
      (splitWords g mixed words).map fun r => { r with operands := word :: r.operands }
    else .ok { operands := word :: words }

end LineCensus.Command
