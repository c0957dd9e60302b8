import LineCensus.Value

namespace LineCensus.Log

/-!
# Log records

* `Level`, `Record` — what is logged, where in the program and how urgent it is.
* `threshold?` — the least urgency that is shown, by the name of a level in letters of any case.
* `Record.passes` — whether a record is shown.
* `Record.toValue` — a record as a document.
-/

/-- How urgent a record is. -/
inductive Level where
  | debug
  | info
  | warning
  deriving DecidableEq, Repr

/-- The name of a level. -/
def Level.name : Level → String
  | .debug => "debug"
  | .info => "info"
  | .warning => "warning"

/-- The urgency of a level as a number. -/
def Level.rank : Level → Nat
  | .debug => 10
  | .info => 20
  | .warning => 30

/-- An event in an area of the program, with what there is to be known about it. -/
structure Record where
  level : Level
  area : String
  event : String
  fields : List (String × Value)

/-- A record as a document. -/
def Record.toValue (r : Record) : Value :=
  .table ([("event", .text r.event), ("level", .text r.level.name),
    ("logger", .text ("slocscan." ++ r.area))] ++ r.fields)

/-- The names of levels, with the least urgency that each lets pass. -/
def levels : List (String × Nat) :=
  [("CRITICAL", 50), ("FATAL", 50), ("ERROR", 40), ("WARN", 30), ("WARNING", 30), ("INFO", 20),
   ("DEBUG", 10), ("NOTSET", 0)]

/-- The capital of a letter whose capital is one of the twenty-six. -/
def capital (c : Char) : Char :=
  if 97 ≤ c.toNat && c.toNat ≤ 122 then Char.ofNat (c.toNat - 32)
  else if c = 'ı' then 'I'
  else if c = 'ſ' then 'S'
  else c

/-- The least urgency that is shown at the level with a name. -/
def threshold? (name : String) : Option Nat :=
  Table.get? levels (String.ofList (name.toList.map capital))

/-- Whether records of a level are shown. -/
def Level.passes (l : Level) (threshold : Nat) : Bool := threshold ≤ l.rank

/-- Whether a record is shown. -/
def Record.passes (r : Record) (threshold : Nat) : Bool := r.level.passes threshold

end LineCensus.Log
