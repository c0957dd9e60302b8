import LineCensus.Moment.Reading
import LineCensus.Text.Quoted

namespace LineCensus.Moment

open Text

/-!
# Moments in ISO 8601

* `IsoFault` — why a text is no moment in ISO 8601.
* `isoDate?` — a day of a month or of a week, with hyphens or without.
* `isoTime?` — a time of day, with colons or without, and an offset in the same form.
* `ofIso` — a date, alone or with a time of day behind any one character.
-/

/-- Why a text is no moment: it is not written like one, or one of its parts is out of bounds. -/
inductive IsoFault where
  | unreadable
  | year (n : Nat)
  | month
  | day
  | hour
  | minute
  | second
  | offset (seconds : Int)
  deriving DecidableEq, Repr

/-- Days and seconds of an offset that is a day or more. -/
def spanText (seconds : Int) : String :=
  let rest := seconds % 86400
  "datetime.timedelta(days=" ++ intNumeral (seconds / 86400) ++
    (if rest = 0 then "" else ", seconds=" ++ intNumeral rest) ++ ")"

/-- What is wrong with a text, in words. -/
def IsoFault.message (text : String) : IsoFault → String
  | .unreadable => "Invalid isoformat string: " ++ quoted text
  | .year n => "year " ++ numeral n ++ " is out of range"
  | .month => "month must be in 1..12"
  | .day => "day is out of range for month"
  | .hour => "hour must be in 0..23"
  | .minute => "minute must be in 0..59"
  | .second => "second must be in 0..59"
  | .offset seconds =>
    "offset must be a timedelta strictly between -timedelta(hours=24) and timedelta(hours=24), " ++
      "not " ++ spanText seconds ++ "."

/-! ### Dates -/

/-- The number of the Monday of the first week of a year: the week that has the first Thursday. -/
def firstMonday (year : Nat) : Int :=
  let first : Int := dayNumber year 1 1
  let weekday := (first + 6) % 7
  if 3 < weekday then first - weekday + 7 else first - weekday

/-- Whether a year has 53 weeks: it begins on a Thursday, or on a Wednesday if it is a leap year. -/
def hasLongCount (year : Nat) : Bool :=
  let weekday := (dayNumber year 1 1 + 6) % 7
  weekday == 3 || (weekday == 2 && isLeap year)

/-- The date of a day of a week.  There are no weeks before the first year. -/
def ofWeek? (year week day : Nat) : Option (Nat × Nat × Nat) :=
  if week = 0 || 53 < week || (week = 53 && !hasLongCount year) || day = 0 || 7 < day then none
  else if year = 0 then some (1, 0, 0)
  else
    let n : Int := firstMonday year + ((week - 1) * 7 + (day - 1) : Nat)
    let (y, m, d) := civil (n - unixEpoch)
    some (y.toNat, m, d)

/-- Reads week and day of a year; the day is the first one if the text ends before it. -/
def readWeek? (hyphens : Bool) (year : Nat) (s : List Char) : Option (Nat × Nat × Nat) := do
  let (week, s) ← two? s
  let s ← if hyphens && !s.isEmpty then skip? '-' s else some s
  match s with
  | [] => ofWeek? year week 1
  | [c] => ofWeek? year week (← digitValue? c)
  | _ => none

/-- The date that a text is, not yet checked against the calendar. -/
def isoDate? (s : List Char) : Option (Nat × Nat × Nat) := do
  let (century, s) ← two? s
  let (rest, s) ← two? s
  let year := 100 * century + rest
  match s with
  | '-' :: 'W' :: s => readWeek? true year s
  | 'W' :: s => readWeek? false year s
  | _ =>
    let hyphens := s.head? = some '-'
    let next (s : List Char) := (if hyphens then skip? '-' s else some s).bind two?
    let (month, s) ← next s
    let (day, s) ← next s
    if s.isEmpty then return (year, month, day) else none

/-- The number of characters of the date in front of a time.  Digits behind a week are of the time
    if they come in pairs. -/
def dateLength (s : List Char) : Nat :=
  match s.drop 4 with
  | '-' :: 'W' :: r => if r[2]? = some '-' && !r[4]?.any isDigit then 10 else 8
  | '-' :: _ => 10
  | 'W' :: r =>
    let digits := ((r.drop 2).takeWhile isDigit).length
    if digits < 2 then 7 + digits else if digits % 2 = 1 then 7 else 8
  | _ => 8

/-! ### Times of day -/

/-- What follows two digits of a clock: two more, a fraction, or nothing that counts.  A single
    character of ASCII that does not count is remembered. -/
inductive Behind where
  | digits (s : List Char)
  | fraction (s : List Char)
  | done (stray : Bool)

/-- What follows two digits of a clock with colons or without. -/
def behind? (colons : Bool) : List Char → Option Behind
  | [] => some (.done false)
  | [c] => if c.toNat < 128 then some (.done true) else none
  | c :: s =>
    if colons && c = ':' then some (.digits s)
    else if c = '.' || c = ',' then some (.fraction s)
    else if colons then none
    else some (.digits (c :: s))

/-- The millionths of a fraction, and whether more than digits stands there.  There may be more only
    behind six digits. -/
def isoFraction? (s : List Char) : Option (Nat × Bool) :=
  let digits := s.takeWhile isDigit
  if digits.length < 6 && digits.length < s.length then none
  else some (millionths digits, digits.length < s.length)

/-- Hour, minute, second and millionths. -/
abbrev Clock := Nat × Nat × Nat × Nat

/-- Up to `n` numbers of two digits, the millionths behind them, and whether more stands there. -/
def clockParts? (colons : Bool) : Nat → List Char → Option (List Nat × Nat × Bool)
  | 0, s => (isoFraction? s).map fun (micro, stray) => ([], micro, stray)
  | n + 1, s => do
    let (part, s) ← two? s
    match ← behind? colons s with
    | .done stray => return ([part], 0, stray)
    | .fraction s =>
      let (micro, stray) ← isoFraction? s
      return ([part], micro, stray)
    | .digits s =>
      let (parts, micro, stray) ← clockParts? colons n s
      return (part :: parts, micro, stray)

/-- The clock that a text is, and whether more stands there. -/
def isoClock? (s : List Char) : Option (Clock × Bool) := do
  let (parts, micro, stray) ← clockParts? ((s.drop 2).head? = some ':') 3 s
  return ((parts[0]?.getD 0, parts[1]?.getD 0, parts[2]?.getD 0, micro), stray)

/-- A time of day, and the offset behind it in seconds.  Between the two something may stand that
    does not count. -/
def isoTime? (s : List Char) : Option (Clock × Option Int) := do
  let front := s.takeWhile fun c => c != '+' && c != '-' && c != 'Z'
  let (clock, stray) ← isoClock? front
  match s.drop front.length with
  | [] => if stray then none else return (clock, none)
  | ['Z'] => return (clock, some 0)
  | sign :: s =>
    if sign = 'Z' then none
    let ((hours, minutes, seconds, _), stray) ← isoClock? s
    let offset : Int := (hours * 3600 + minutes * 60 + seconds : Nat)
    if stray then none else return (clock, some (if sign = '-' then -offset else offset))

/-! ### Whole moments -/

/-- The first part of a date and a time that is out of bounds. -/
def faultOf (year month day : Nat) (clock : Clock) : IsoFault :=
  if year < 1 || 9999 < year then .year year
  else if month < 1 || 12 < month then .month
  else if day < 1 || daysInMonth year month < day then .day
  else if 23 < clock.1 then .hour
  else if 59 < clock.2.1 then .minute
  else .second

/-- The moment with a date, a clock and an offset. -/
def ofParts (date : Nat × Nat × Nat) (clock : Clock) (offset : Option Int) :
    Except IsoFault Moment :=
  let (year, month, day) := date
  let (hour, minute, second, micro) := clock
  match offset.filter fun o => 86400 ≤ o.natAbs with
  | some o => .error (.offset o)
  | none =>
    match mk? year month day hour minute second micro offset with
    | some m => .ok m
    | none => .error (faultOf year month day clock)

/-- The moment of a date, alone or with a time of day behind any one character. -/
def ofIso (s : List Char) : Except IsoFault Moment :=
  let n := dateLength s
  match isoDate? (s.take n), s.drop n with
  | none, _ => .error .unreadable
  | some date, [] => ofParts date (0, 0, 0, 0) none
  | some date, _ :: time =>
    match isoTime? time with
    | none => .error .unreadable
    | some (clock, offset) => ofParts date clock offset

end LineCensus.Moment
