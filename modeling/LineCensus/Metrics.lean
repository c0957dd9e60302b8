import LineCensus.Table
import LineCensus.Moment.Basic
import LineCensus.Text.Order
import LineCensus.Text.Search
import LineCensus.Decimal.Dyadic

namespace LineCensus

open Text

/-!
# Measurements of a run

* `Gauge` — the numbers that times and counts are measured in.
* `Phase`, `Metrics` — the phases of a run and its named values.
* `Metrics.beginRun`, `endRun`, `startPhase`, `completePhase`, `failPhase`, `record`, `increment` —
  the events of a run.  Readings of the clock are given to them.
* `Metrics.elapsed?`, `Phase.duration?` — times between two readings, to a ten-thousandth of a
  second.
* `Clock`, `Metered` — a clock that advances by a step at every reading, and measurements with such
  a clock beside them.
* `Metrics.logLines` — the measurements as lines of a log.
-/

/-- Numbers in which times and counts are measured. -/
class Gauge (α : Type) where
  ofNat : Nat → α
  add : α → α → α
  sub : α → α → α
  div : α → α → α
  isZero : α → Bool
  /-- The number to four decimal places. -/
  round : α → α
  /-- The number with three decimal places. -/
  text : α → String

instance : Gauge Float where
  ofNat n := Decimal.ofRatio n 1
  add := (· + ·)
  sub := (· - ·)
  div := (· / ·)
  isZero x := x == 0.0
  round := Decimal.roundTo 4
  text := Decimal.showFixed 3

/-- How far a phase has come. -/
inductive PhaseStatus where
  | pending
  | running
  | completed
  | failed
  deriving DecidableEq, Repr

/-- The name of a status. -/
def PhaseStatus.name : PhaseStatus → String
  | .pending => "pending"
  | .running => "running"
  | .completed => "completed"
  | .failed => "failed"

/-- A phase of a run. -/
structure Phase (α : Type) where
  name : String
  status : PhaseStatus
  start : Option α
  stop : Option α
  detail : String
  error : Option String

/-- The measurements of a run.  `latest` has the place of the last phase of every name. -/
structure Metrics (α : Type) where
  operation : String
  phases : List (Phase α) := []
  values : Table α := []
  startedAt : Option Moment := none
  start : Option α := none
  stop : Option α := none
  latest : Table Nat := []

variable {α : Type} [Gauge α]

/-- The time from one reading to another. -/
def span (start stop : α) : α := Gauge.round (Gauge.sub stop start)

/-- The time a phase took. -/
def Phase.duration? (p : Phase α) : Option α :=
  match p.start, p.stop with
  | some a, some b => some (span a b)
  | _, _ => none

namespace Metrics

/-- Sets a value. -/
def record (m : Metrics α) (name : String) (v : α) : Metrics α :=
  { m with values := m.values.insert name v }

/-- Adds to a value, which is zero if it is not there. -/
def increment (m : Metrics α) (name : String) (v : α) : Metrics α :=
  m.record name (Gauge.add ((m.values.get? name).getD (Gauge.ofNat 0)) v)

/-- The run begins. -/
def beginRun (m : Metrics α) (now : Moment) (reading : α) (processors : Nat) : Metrics α :=
  -- An end that was noted before is not taken back.
  { m with startedAt := some now, start := some reading }.record "system_cpu_count"
    (Gauge.ofNat processors)

/-- The time since the run began, up to its end or up to a reading. -/
def elapsed? (m : Metrics α) (reading : α) : Option α :=
  m.start.map fun start => span start (m.stop.getD reading)

/-- The run ends. -/
def endRun (m : Metrics α) (reading : α) : Metrics α :=
  let m := { m with stop := some reading }
  match m.elapsed? reading with
  | some t => m.record "elapsed_seconds" t
  | none => m

/-- A phase starts. -/
def startPhase (m : Metrics α) (name : String) (reading : α) : Metrics α :=
  { m with
    phases := m.phases ++ [⟨name, .running, some reading, none, "", none⟩]
    latest := m.latest.insert name m.phases.length }

/-- Whether a phase of the name was ever started. -/
def knows (m : Metrics α) (name : String) : Bool := m.latest.has name

/-- Changes the last phase of a name. -/
def updatePhase (m : Metrics α) (name : String) (f : Phase α → Phase α) : Metrics α :=
  match m.latest.get? name with
  | some i => { m with phases := m.phases.modify i f }
  | none => m

/-- The last phase of a name. -/
def phase? (m : Metrics α) (name : String) : Option (Phase α) :=
  (m.latest.get? name).bind fun i => m.phases[i]?

/-- The last phase of a name is done. -/
def completePhase (m : Metrics α) (name detail : String) (reading : α) : Metrics α :=
  let m := m.updatePhase name fun p =>
    { p with status := .completed, stop := some reading, detail }
  match (m.phase? name).bind Phase.duration? with
  | some t => m.record (name ++ "_time") t
  | none => m

/-- The last phase of a name has failed. -/
def failPhase (m : Metrics α) (name error : String) (reading : α) : Metrics α :=
  m.updatePhase name fun p =>
    { p with status := .failed, stop := some reading, error := some error }

/-- The measurements as lines of a log, values in the order of their names. -/
def logLines (m : Metrics α) : List String :=
  let started := (m.startedAt.map Moment.heading).getD "?"
  ("=== slocscan metrics: " ++ m.operation ++ " @ " ++ started ++ " ===") ::
    (sortOn (·.1) m.values).map (fun e => e.1 ++ ": " ++ Gauge.text e.2) ++ ["=== end ==="]

/-- The lines as they are appended to a log file. -/
def logText (m : Metrics α) : String := joinWith "\n" m.logLines ++ "\n\n"

end Metrics

/-! ### Measurements with a clock -/

/-- A clock that is ahead by `step` after every reading. -/
structure Clock (α : Type) where
  reading : α
  step : α

/-- The clock after a reading. -/
def Clock.next (c : Clock α) : Clock α := { c with reading := Gauge.add c.reading c.step }

/-- The clock set ahead. -/
def Clock.advance (c : Clock α) (t : α) : Clock α := { c with reading := Gauge.add c.reading t }

/-- Measurements and the clock they are taken with. -/
structure Metered (α : Type) where
  metrics : Metrics α
  clock : Clock α

namespace Metered

/-- Changes the measurements without a reading. -/
def tell (m : Metered α) (f : Metrics α → Metrics α) : Metered α :=
  { m with metrics := f m.metrics }

/-- Changes the measurements by one reading. -/
def note (m : Metered α) (f : Metrics α → α → Metrics α) : Metered α :=
  ⟨f m.metrics m.clock.reading, m.clock.next⟩

/-- The run begins. -/
def beginRun (m : Metered α) (now : Moment) (processors : Nat) : Metered α :=
  m.note fun x t => x.beginRun now t processors

/-- The run ends. -/
def endRun (m : Metered α) : Metered α := m.note Metrics.endRun

/-- A phase starts. -/
def startPhase (m : Metered α) (name : String) : Metered α :=
  m.note fun x t => x.startPhase name t

/-- A phase is done; the clock is read only if there is such a phase. -/
def completePhase (m : Metered α) (name detail : String) : Metered α :=
  if m.metrics.knows name then m.note fun x t => x.completePhase name detail t else m

/-- A phase has failed; the clock is read only if there is such a phase. -/
def failPhase (m : Metered α) (name error : String) : Metered α :=
  if m.metrics.knows name then m.note fun x t => x.failPhase name error t else m

/-- Sets a value to a count. -/
def count (m : Metered α) (name : String) (n : Nat) : Metered α :=
  m.tell fun x => x.record name (Gauge.ofNat n)

/-- The time since the run began.  The clock is read only while the run is on. -/
def elapsed? (m : Metered α) : Option α × Metered α :=
  let t := m.metrics.elapsed? m.clock.reading
  if m.metrics.start.isSome && m.metrics.stop.isNone then (t, { m with clock := m.clock.next })
  else (t, m)

end Metered

end LineCensus
