import LineCensus.Text.Digit

namespace LineCensus

open Text

/-!
# Moments

* `Moment` — a date with a time of day and, unless it is a local time, the distance from UTC.
* `Moment.instant` — microseconds since the first day of the calendar, for comparisons.
* `Moment.same` — one point in time: two moments with an offset are compared as instants, a local
  time equals only the same local time.
* `Moment.stored`, `Moment.iso` — the text of a moment in a report and in a comparison.
* `Moment.ofUnix?` — a moment from the seconds since 1970.
-/

/-- A year with a 29th of February. -/
def isLeap (year : Nat) : Bool := year % 4 == 0 && (year % 100 != 0 || year % 400 == 0)

/-- The length of a month, zero if there is no such month. -/
def daysInMonth (year month : Nat) : Nat :=
  if month = 2 then (if isLeap year then 29 else 28)
  else if month = 4 || month = 6 || month = 9 || month = 11 then 30
  else if 1 ≤ month && month ≤ 12 then 31
  else 0

/-- Date, time of day and offset lie within their bounds. -/
def isMoment (year month day hour minute second micro : Nat) (offset : Option Int) : Bool :=
  1 ≤ year && year ≤ 9999 && 1 ≤ day && day ≤ daysInMonth year month && hour < 24 && minute < 60 &&
    second < 60 && micro < 1000000 && offset.all fun o => o.natAbs < 86400

/-- A date with a time of day.  The offset is the distance from UTC in seconds; without one the time
    is local. -/
structure Moment where
  year : Nat
  month : Nat
  day : Nat
  hour : Nat
  minute : Nat
  second : Nat
  micro : Nat
  offset : Option Int
  inBounds : isMoment year month day hour minute second micro offset = true
  deriving DecidableEq

namespace Moment

/-- The moment with these parts, if they lie within their bounds. -/
def mk? (year month day hour minute second micro : Nat) (offset : Option Int) : Option Moment :=
  if h : isMoment year month day hour minute second micro offset = true then
    some ⟨year, month, day, hour, minute, second, micro, offset, h⟩
  else none

/-! ### Instants -/

/-- The days before the first of January of a year. -/
def daysBeforeYear (year : Nat) : Nat :=
  let y := year - 1
  y * 365 + y / 4 - y / 100 + y / 400

/-- The number of a day of the calendar, from one. -/
def dayNumber (year month day : Nat) : Nat :=
  let months := (List.range (month - 1)).map fun m => daysInMonth year (m + 1)
  daysBeforeYear year + months.foldr (· + ·) 0 + day

/-- Microseconds since the start of the calendar, in UTC or in local time. -/
def instant (m : Moment) : Int :=
  let seconds : Int := (dayNumber m.year m.month m.day * 86400 + m.hour * 3600 + m.minute * 60 +
    m.second : Nat)
  (seconds - m.offset.getD 0) * 1000000 + m.micro

/-- Whether two moments are one point in time. -/
def same (a b : Moment) : Bool := a.offset.isSome == b.offset.isSome && a.instant == b.instant

/-- Year, month and day of the day `n` days after the first of January 1970. -/
def civil (n : Int) : Int × Nat × Nat :=
  let z := n + 719468
  let era := z / 146097
  let dayOfEra := (z % 146097).toNat
  let yearOfEra := (dayOfEra - dayOfEra / 1460 + dayOfEra / 36524 - dayOfEra / 146096) / 365
  let dayOfYear := dayOfEra - (365 * yearOfEra + yearOfEra / 4 - yearOfEra / 100)
  let shifted := (5 * dayOfYear + 2) / 153
  let day := dayOfYear - (153 * shifted + 2) / 5 + 1
  let month := if shifted < 10 then shifted + 3 else shifted - 9
  ((yearOfEra : Int) + era * 400 + (if month ≤ 2 then 1 else 0), month, day)

/-- The moment `seconds` and `micro` after the start of 1970, with the given offset. -/
def ofUnix? (seconds : Int) (micro : Nat) (offset : Int) : Option Moment :=
  let wall := seconds + offset
  let (year, month, day) := civil (wall / 86400)
  let time := (wall % 86400).toNat
  if year < 1 then none
  else mk? year.toNat month day (time / 3600) (time / 60 % 60) (time % 60) micro (some offset)

/-- The number of the first of January 1970. -/
def unixEpoch : Nat := 719163

/-- The same instant in UTC.  A local time is taken to be in UTC. -/
def toUtc? (m : Moment) : Option Moment :=
  let n := m.instant - unixEpoch * 86400000000
  ofUnix? (n / 1000000) (n % 1000000).toNat 0

/-! ### Text -/

/-- A number in at least `width` digits. -/
def padded (width n : Nat) : List Char := padLeft width '0' (showNat n)

/-- Date and time; the fraction is left out when it is zero. -/
def wall (m : Moment) : List Char :=
  padded 4 m.year ++ '-' :: padded 2 m.month ++ '-' :: padded 2 m.day ++ 'T' :: padded 2 m.hour ++
    ':' :: padded 2 m.minute ++ ':' :: padded 2 m.second ++
    (if m.micro = 0 then [] else '.' :: padded 6 m.micro)

/-- Hours and minutes of an offset behind its sign. -/
def offsetText (o : Int) : List Char :=
  (if o < 0 then '-' else '+') :: padded 2 (o.natAbs / 3600) ++
    ':' :: padded 2 (o.natAbs / 60 % 60)

/-- The text in a report: UTC is marked by `Z`, seconds of an offset are dropped. -/
def stored (m : Moment) : String :=
  String.ofList (m.wall ++ match m.offset with
    | none => []
    | some o => if o = 0 then ['Z'] else offsetText o)

/-- The text in a comparison: every offset in hours and minutes, and seconds if it has any. -/
def iso (m : Moment) : String :=
  String.ofList (m.wall ++ match m.offset with
    | none => []
    | some o =>
      offsetText o ++ if o.natAbs % 60 = 0 then [] else ':' :: padded 2 (o.natAbs % 60))

/-- Date and time in UTC to the second, for headings.  The year has no zeros in front. -/
def heading (m : Moment) : String :=
  String.ofList (showNat m.year ++ '-' :: padded 2 m.month ++ '-' :: padded 2 m.day ++ ' ' ::
    padded 2 m.hour ++ ':' :: padded 2 m.minute ++ ':' :: padded 2 m.second ++ " UTC".toList)

end Moment

end LineCensus
