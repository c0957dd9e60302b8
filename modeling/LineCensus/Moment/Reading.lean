import LineCensus.Moment.Basic
import LineCensus.Text.Utf8
import LineCensus.Decimal.Dyadic

namespace LineCensus.Moment

open Text

/-!
# Reading moments

* `ofRfc3339?` — a date and time with seconds, a fraction and an offset all optional.
* `ofSeconds`, `ofFloat`, `ofFloatText` — seconds since 1970, or milliseconds when the number is
  too large for seconds; as a whole number, as a fraction, or as the text of a fraction.
* `ofText` — a date and time, a number of seconds, or a bare date; with the problem of the date
  if the text is none of them.
-/

/-- Why a value is no moment. -/
inductive Problem where
  | wrongType
  | yearZero
  | tooLate
  | tooEarly
  | notANumber
  | dateTooShort
  | dateYear
  | dateSeparator
  | dateMonth
  | dateDay
  | monthRange
  | dayRange
  | trailing
  | dateTooLate
  | dateTooEarly
  deriving DecidableEq, Repr

/-- The words for a problem. -/
def Problem.text : Problem → String
  | .wrongType => "Input should be a valid datetime"
  | .yearZero => "Input should be a valid datetime, year 0 is out of range"
  | .tooLate =>
    "Input should be a valid datetime, dates after 9999 are not supported as unix timestamps"
  | .tooEarly =>
    "Input should be a valid datetime, dates before 0000 are not supported as unix timestamps"
  | .notANumber => "Input should be a valid datetime, NaN values not permitted"
  | .dateTooShort => "Input should be a valid datetime or date, input is too short"
  | .dateYear => "Input should be a valid datetime or date, invalid character in year"
  | .dateSeparator =>
    "Input should be a valid datetime or date, invalid date separator, expected `-`"
  | .dateMonth => "Input should be a valid datetime or date, invalid character in month"
  | .dateDay => "Input should be a valid datetime or date, invalid character in day"
  | .monthRange =>
    "Input should be a valid datetime or date, month value is outside expected range of 1-12"
  | .dayRange => "Input should be a valid datetime or date, day value is outside expected range"
  | .trailing =>
    "Input should be a valid datetime or date, unexpected extra characters at the end of the input"
  | .dateTooLate =>
    "Input should be a valid datetime or date, " ++
      "dates after 9999 are not supported as unix timestamps"
  | .dateTooEarly =>
    "Input should be a valid datetime or date, " ++
      "dates before 0000 are not supported as unix timestamps"

/-! ### Parts of a text -/

/-- The number of the two digits at the front. -/
def two? : List Char → Option (Nat × List Char)
  | a :: b :: s => do
    let a ← digitValue? a
    let b ← digitValue? b
    return (10 * a + b, s)
  | _ => none

/-- The rest behind the character `c`. -/
def skip? (c : Char) : List Char → Option (List Char)
  | d :: s => if d = c then some s else none
  | [] => none

/-- A date `YYYY-MM-DD` at the front, not yet checked against the calendar. -/
def dateParts? (s : List Char) : Option ((Nat × Nat × Nat) × List Char) := do
  let (century, s) ← two? s
  let (year, s) ← two? s
  let s ← skip? '-' s
  let (month, s) ← two? s
  let s ← skip? '-' s
  let (day, s) ← two? s
  return ((100 * century + year, month, day), s)

/-- The first six digits of a fraction as a number of millionths. -/
def millionths (digits : List Char) : Nat :=
  readDigits ((digits ++ List.replicate 6 '0').take 6)

/-- A time of day at the front: hour and minute, then seconds and a fraction if they are there. -/
def timeParts? (s : List Char) : Option ((Nat × Nat × Nat × Nat) × List Char) := do
  let (hour, s) ← two? s
  let s ← skip? ':' s
  let (minute, s) ← two? s
  match s with
  | ':' :: s =>
    let (second, s) ← two? s
    match s with
    | c :: r =>
      if c = '.' || c = ',' then
        let digits := r.takeWhile isDigit
        if digits.isEmpty then none
        else return ((hour, minute, second, millionths digits), r.dropWhile isDigit)
      else return ((hour, minute, second, 0), s)
    | [] => return ((hour, minute, second, 0), [])
  | s => return ((hour, minute, 0, 0), s)

/-- The direction that the sign of an offset stands for.  The minus sign proper counts as the hyphen
    does. -/
def offsetSign? (c : Char) : Option Int :=
  if c = '+' then some 1
  else if c = '-' || c = '\u2212' then some (-1)
  else none

/-- An offset that ends the text: nothing, `Z`, or hours and minutes with or without a colon. -/
def offsetPart? : List Char → Option (Option Int)
  | [] => some none
  | ['Z'] => some (some 0)
  | ['z'] => some (some 0)
  | sign :: s => do
    let unit ← offsetSign? sign
    let (hours, s) ← two? s
    let s := (skip? ':' s).getD s
    let (minutes, s) ← two? s
    if s.isEmpty && minutes < 60 then return some (unit * (hours * 3600 + minutes * 60 : Nat))
    else none

/-- A date and time of RFC 3339.  Date and time may be parted by `T`, `t`, a blank or an underscore.
    The year zero is told apart, for it is well formed but no year of the calendar. -/
def ofRfc3339? (s : List Char) : Option (Except Problem Moment) := do
  let ((year, month, day), s) ← dateParts? s
  if month < 1 || 12 < month || day < 1 || daysInMonth year month < day then none
  match s with
  | sep :: s =>
    if sep = 'T' || sep = 't' || sep = ' ' || sep = '_' then
      let ((hour, minute, second, micro), s) ← timeParts? s
      if hour < 24 && minute < 60 && second < 60 then
        let offset ← offsetPart? s
        if offset.any fun o => 86400 ≤ o.natAbs then none
        if year = 0 then return .error .yearZero
        let m ← mk? year month day hour minute second micro offset
        return .ok m
      else none
    else none
  | [] => none

/-! ### Numbers of seconds -/

/-- Numbers of a larger size count milliseconds. -/
def millisecondsFrom : Nat := 20000000000

/-- Whether a number of this size counts seconds, not milliseconds. -/
def countsSeconds (n : Int) : Bool := n.natAbs ≤ millisecondsFrom

/-- The first second of the year zero, counted from 1970. -/
def yearZeroStart : Int := -62167219200

/-- A moment from the seconds since 1970.  A second of the year zero is told apart from the earlier
    ones. -/
def ofUnixSeconds (seconds : Int) (micro : Nat) : Except Problem Moment :=
  match ofUnix? seconds micro 0 with
  | some m => .ok m
  | none =>
    if seconds < yearZeroStart then .error .tooEarly
    else if seconds < 0 then .error .yearZero
    else .error .tooLate

/-- A number of seconds, or of milliseconds, and millionths of a second on top of it. -/
def ofSeconds (n : Int) (micro : Nat) : Except Problem Moment :=
  if n ≤ -(Decimal.wordBound : Int) then .error .tooEarly
  else
    -- What is above a whole second is not negative, not even before 1970.
    let (seconds, extra) : Int × Nat :=
      if countsSeconds n then (n, 0) else (n / 1000, (n % 1000).toNat * 1000)
    let micros := micro + extra
    ofUnixSeconds (seconds + (micros / 1000000 : Nat)) (micros % 1000000)

/-- The largest whole number that is not above `x`, cut to the bounds of 64 bits. -/
def wholeBelow (x : Float) : Int :=
  let bound : Int := Decimal.wordBound
  match Decimal.Dyadic.ofFloat? x with
  | none => if x < 0 then -bound else bound - 1
  | some d =>
    let (num, den) := d.ratio
    let below : Int := if d.negative then -((num + den - 1) / den : Nat) else (num / den : Nat)
    if below < -bound then -bound else if bound ≤ below then bound - 1 else below

/-- The part of a number above the whole number below it, as a number of the given units to the
    nearest.  It can be as many units as there are in one. -/
def unitsAbove (units : Float) (x : Float) : Nat :=
  ((x - x.floor) * units).round.toUInt64.toNat

/-- A number of seconds, or of milliseconds, with a fraction. -/
def ofFloat (x : Float) : Except Problem Moment :=
  if x.isNaN then .error .notANumber
  else
    let n := wholeBelow x
    ofSeconds n (unitsAbove (if countsSeconds n then 1000000 else 1000) x)

/-- A whole number of 64 bits written with an optional sign. -/
def wholeText? (s : List Char) : Option Int := do
  let (unit, digits) : Int × List Char := match s with
    | '-' :: r => (-1, r)
    | '+' :: r => (1, r)
    | r => (1, r)
  if digits.isEmpty || !digits.all isDigit then none
  let n : Int := unit * (readDigits digits : Nat)
  if Decimal.isWord n then some n else none

/-- The power of ten behind a number, zero if there is none. -/
def powerText? : List Char → Option Int
  | [] => some 0
  | c :: s =>
    let (unit, digits) : Int × List Char := match s with
      | '-' :: r => (-1, r)
      | '+' :: r => (1, r)
      | r => (1, r)
    if (c = 'e' || c = 'E') && !digits.isEmpty && digits.all isDigit then
      some (unit * (readDigits digits : Nat))
    else none

/-- A number written with an optional sign, a point, digits on at least one side of the point, and
    an optional power of ten. -/
def fractionText? (s : List Char) : Option Float := do
  let (negative, r) : Bool × List Char := match s with
    | '-' :: r => (true, r)
    | '+' :: r => (false, r)
    | r => (false, r)
  let whole := r.takeWhile isDigit
  if !Decimal.isWord (readDigits whole : Nat) then none
  let r ← skip? '.' (r.dropWhile isDigit)
  let fraction := r.takeWhile isDigit
  if whole.isEmpty && fraction.isEmpty then none
  let power ← powerText? (r.dropWhile isDigit)
  let x := Decimal.ofDecimal (readDigits (whole ++ fraction)) (power - (fraction.length : Int))
  return if negative then -x else x

/-- The moment of a number that was written as a text.  Milliseconds are turned into seconds before
    the fraction is split off. -/
def ofFloatText (x : Float) : Except Problem Moment :=
  let seconds := if Float.ofNat millisecondsFrom < x.abs then x / 1000 else x
  ofSeconds (wholeBelow seconds) (unitsAbove 1000000 seconds)

/-! ### Any text -/

/-- A bare date, or what keeps the text from being one.  Lengths are counted in bytes. -/
def ofDate (s : List Char) : Except Problem Moment :=
  match s with
  | y₁ :: y₂ :: y₃ :: y₄ :: r =>
    -- The first part that is wrong is the one complained of.
    if (encodeUtf8 s).length < 10 then .error .dateTooShort
    else if !([y₁, y₂, y₃, y₄].all isDigit) then .error .dateYear
    else match r with
      | '-' :: m₁ :: m₂ :: r =>
        if !([m₁, m₂].all isDigit) then .error .dateMonth
        else match r with
          | '-' :: r =>
            match r with
            | d₁ :: d₂ :: r =>
              let year := readDigits [y₁, y₂, y₃, y₄]
              let month := readDigits [m₁, m₂]
              let day := readDigits [d₁, d₂]
              if !([d₁, d₂].all isDigit) then .error .dateDay
              else if month < 1 || 12 < month then .error .monthRange
              else if day < 1 || daysInMonth year month < day then .error .dayRange
              else if !r.isEmpty then .error .trailing
              else match mk? year month day 0 0 0 0 none with
                | some m => .ok m
                | none => .error .yearZero
            | [d₁] => .error (if isDigit d₁ then .dateTooShort else .dateDay)
            | [] => .error .dateDay
          | _ => .error .dateSeparator
      | '-' :: m₁ :: r => .error (if isDigit m₁ && r.isEmpty then .dateTooShort else .dateMonth)
      | _ => .error .dateSeparator
  | _ => .error (if (encodeUtf8 s).length < 10 then .dateTooShort else .dateYear)

/-- The moment that a text stands for. -/
def ofText (s : List Char) : Except Problem Moment :=
  match ofRfc3339? s with
  | some r => r
  | none =>
    match wholeText? s with
    | some n =>
      match ofSeconds n 0 with
      | .error .tooLate => .error .dateTooLate
      | .error .tooEarly => .error .dateTooEarly
      | r => r
    | none =>
      match (fractionText? s).map ofFloatText with
      -- A fraction that is out of range is complained of as a date.
      | some (.error .tooLate) => ofDate s
      | some (.error .tooEarly) => ofDate s
      | some r => r
      | none => ofDate s

end LineCensus.Moment
