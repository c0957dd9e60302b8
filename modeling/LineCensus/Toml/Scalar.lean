import LineCensus.Decimal.Dyadic
import LineCensus.Excess
import LineCensus.Moment.Basic
import LineCensus.Text.Search
import LineCensus.Value

namespace LineCensus.Toml

open Text

/-!
# Numbers and times of TOML

* `readDate?`, `readTime?`, `readCalendar?` — dates and times of day, of which nothing is kept.
* `readRun?` — digits with single underscores between them.
* `readNumber?` — whole numbers, also in base two, eight and sixteen, and numbers with a fraction or
  an exponent.
* `readPlain` — any value that is neither quoted text nor made of others.
* `Failure` — why a text is no document.
-/

/-- Why a text is no document: it is not written like one, or has too much of something. -/
inductive Failure where
  | malformed
  | excess (e : Excess)
  deriving DecidableEq, Repr

/-- What was read, or else a failure to find it. -/
def orFail {α : Type} : Option α → Except Failure α
  | some a => .ok a
  | none => .error .malformed

/-! ### Dates and times -/

/-- Reads two digits. -/
def readTwo? : List Char → Option (Nat × List Char)
  | a :: b :: s => if isDigit a && isDigit b then some (readDigits [a, b], s) else none
  | _ => none

/-- Reads two digits of a number below `bound`. -/
def readBelow? (bound : Nat) (s : List Char) : Option (Nat × List Char) :=
  (readTwo? s).filter fun p => p.1 < bound

/-- Reads a character that is given. -/
def expect? (c : Char) : List Char → Option (List Char)
  | d :: s => if c = d then some s else none
  | [] => none

/-- Reads a day of the calendar. -/
def readDate? (s : List Char) : Option (List Char) := do
  let (century, s) ← readTwo? s
  let (year, s) ← readTwo? s
  let s ← expect? '-' s
  let (month, s) ← readTwo? s
  let s ← expect? '-' s
  let (day, s) ← readTwo? s
  let year := century * 100 + year
  if year = 0 || day = 0 || daysInMonth year month < day then none else some s

/-- Reads the fraction of a second, if there is one. -/
def skipFraction (s : List Char) : List Char :=
  match s with
  | '.' :: r => if (r.takeWhile isDigit).isEmpty then s else r.dropWhile isDigit
  | _ => s

/-- Reads a time of day. -/
def readTime? (s : List Char) : Option (List Char) := do
  let (_, s) ← readBelow? 24 s
  let s ← expect? ':' s
  let (_, s) ← readBelow? 60 s
  let s ← expect? ':' s
  let (_, s) ← readBelow? 60 s
  some (skipFraction s)

/-- Reads a sign with hours and minutes. -/
def readOffset? : List Char → Option (List Char)
  | c :: s =>
    if c = 'Z' || c = 'z' then some s
    else if c = '+' || c = '-' then do
      let (_, s) ← readBelow? 24 s
      let s ← expect? ':' s
      let (_, s) ← readBelow? 60 s
      some s
    else none
  | [] => none

/-- Reads a time of day behind a date, if there is one, and the offset behind that. -/
def skipTime (s : List Char) : List Char :=
  match s with
  | c :: r =>
    if c = 'T' || c = 't' || c = ' ' then
      match readTime? r with
      | some r => (readOffset? r).getD r
      | none => s
    else s
  | [] => s

/-- Reads a date, a time of day or both. -/
def readCalendar? (s : List Char) : Option (List Char) :=
  match readDate? s with
  | some r => some (skipTime r)
  | none => readTime? s

/-! ### Numbers -/

/-- Reads more digits, each with at most one underscore in front of it. -/
def moreDigits (isOne : Char → Bool) : List Char → List Char × List Char
  | '_' :: c :: s =>
    if isOne c then
      let (digits, r) := moreDigits isOne s
      (c :: digits, r)
    else ([], '_' :: c :: s)
  | c :: s =>
    if isOne c then
      let (digits, r) := moreDigits isOne s
      (c :: digits, r)
    else ([], c :: s)
  | [] => ([], [])

/-- Reads a digit and those that follow it. -/
def readRun? (isOne : Char → Bool) : List Char → Option (List Char × List Char)
  | c :: s =>
    if isOne c then
      let (digits, r) := moreDigits isOne s
      some (c :: digits, r)
    else none
  | [] => none

/-- The digit is one in the given base, up to sixteen. -/
def isDigitOf (base : Nat) (c : Char) : Bool := (hexValue? c).any (· < base)

/-- The bases other than ten, with their marks. -/
def bases : List (String × Nat) := [("0x", 16), ("0o", 8), ("0b", 2)]

/-- Reads a whole number in a base other than ten. -/
def readBased? (s : List Char) : Option (Nat × List Char) :=
  bases.findSome? fun (mark, base) => do
    let r ← dropStart? mark.toList s
    let (digits, r) ← readRun? (isDigitOf base) r
    some (digits.foldl (fun n c => n * base + (hexValue? c).getD 0) 0, r)

/-- Reads the whole part of a number: a zero, or digits that begin with another one. -/
def readWhole? : List Char → Option (List Char × List Char)
  | '0' :: s => some (['0'], s)
  | s => readRun? isDigit s

/-- Reads digits behind a point, if there are any. -/
def readFraction (s : List Char) : List Char × List Char :=
  match s with
  | '.' :: r => (readRun? isDigit r).getD ([], s)
  | _ => ([], s)

/-- A sign at the front of the text: whether it is a minus, and what follows it. -/
def readSign : List Char → Bool × List Char
  | '-' :: s => (true, s)
  | '+' :: s => (false, s)
  | s => (false, s)

/-- Reads an exponent, if there is one. -/
def readExponent (s : List Char) : Option Int × List Char :=
  match s with
  | c :: r =>
    if c = 'e' || c = 'E' then
      let (negative, r) := readSign r
      match readRun? isDigit r with
      | some (digits, r) =>
        let n : Int := readDigits digits
        (some (if negative then -n else n), r)
      | none => (none, s)
    else (none, s)
  | [] => (none, s)

/-- Reads a number in base ten.  It is whole unless it has a fraction or an exponent. -/
def readDecimal? (s : List Char) : Option (Except Excess Value × List Char) := do
  let (negative, s) := readSign s
  let (whole, s) ← readWhole? s
  let (fraction, s) := readFraction s
  let (exponent, s) := readExponent s
  if fraction.isEmpty && exponent.isNone then
    let n : Except Excess Nat := readWithin whole
    return (n.map fun n => .int (if negative then -(n : Int) else n), s)
  else
    let x := Decimal.ofDecimal (readDigits (whole ++ fraction)) (exponent.getD 0 - fraction.length)
    return (.ok (.float (if negative then -x else x)), s)

/-- Reads a number in any base. -/
def readNumber? (s : List Char) : Option (Except Excess Value × List Char) :=
  match readBased? s with
  | some (n, r) => some (.ok (.int n), r)
  | none => readDecimal? s

/-! ### Scalars -/

/-- Truth values. -/
def truths : List (String × Value) := [("true", .bool true), ("false", .bool false)]

/-- Numbers that are not finite. -/
def specials : List (String × Value) :=
  [("inf", .float (1.0 / 0.0)), ("+inf", .float (1.0 / 0.0)), ("-inf", .float (-1.0 / 0.0)),
   ("nan", .float (0.0 / 0.0)), ("+nan", .float (0.0 / 0.0)), ("-nan", .float (0.0 / 0.0))]

/-- Reads one of some words. -/
def readWord? (words : List (String × Value)) (s : List Char) : Option (Value × List Char) :=
  words.findSome? fun w => (dropStart? w.1.toList s).map (w.2, ·)

/-- Reads a truth value, a date or time, or a number. -/
def readPlain (s : List Char) : Except Failure (Value × List Char) :=
  match (readWord? truths s).or ((readCalendar? s).map (Value.calendar, ·)) with
  | some r => .ok r
  | none =>
    match readNumber? s with
    | some (.ok v, r) => .ok (v, r)
    | some (.error e, _) => .error (.excess e)
    | none => orFail (readWord? specials s)

end LineCensus.Toml
