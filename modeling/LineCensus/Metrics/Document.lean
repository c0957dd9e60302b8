import LineCensus.Metrics
import LineCensus.Value

namespace LineCensus.Metrics

/-!
# Measurements as a document

* `phaseEntry` — a phase with its status, duration, detail and error.
* `summary` — the operation, the time it took, its phases and its named values.
-/

/-- A number, or nothing. -/
def timeValue (t : Option Float) : Value := (t.map Value.float).getD .null

/-- A phase as a document. -/
def phaseEntry (p : Phase Float) : Value :=
  .table
    [("phase", .text p.name), ("status", .text p.status.name), ("duration", timeValue p.duration?),
     ("detail", .text p.detail), ("error", (p.error.map Value.text).getD .null)]

/-- The named values as a document. -/
def valueTable (m : Metrics Float) : Value := .table (m.values.map fun e => (e.1, .float e.2))

/-- What was measured, with the time that has passed. -/
def summary (m : Metrics Float) (elapsed : Option Float) : Table Value :=
  [("operation", .text m.operation), ("elapsed", timeValue elapsed),
   ("phases", .list (m.phases.map phaseEntry)), ("values", m.valueTable)]

end LineCensus.Metrics
