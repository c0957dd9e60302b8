import LineCensus.Language.Basic
import LineCensus.Report.Storage

namespace LineCensus

/-!
# Configurations

* `Performance`, `Defaults` — how a scan is run, and what it does unless it is told otherwise.
* `Config` — both, with the languages that are added to the built-in ones.
* `Config.threads`, `Config.reportPath`, `Config.definitions` — what a scan takes from it.
-/

/-- How a scan is run.  No threads means one for each processor. -/
structure Performance where
  threads : Nat
  chunk : Nat
  metrics : Bool
  metricsFile : String
  chunk_pos : 0 < chunk
  deriving DecidableEq

/-- What a scan does unless it is told otherwise. -/
structure Defaults where
  recursive : Bool
  noProgress : Bool
  format : Format
  output : String
  deriving DecidableEq, Repr

/-- A configuration.  Languages stand under the keys of their tables. -/
structure Config where
  performance : Performance
  defaults : Defaults
  languages : Table Language
  deriving DecidableEq

namespace Config

/-- The configuration without a file. -/
def standard : Config where
  performance := ⟨0, 1000, false, "sloc_metrics.log", by decide⟩
  defaults := ⟨false, false, .json, "sloc-report"⟩
  languages := []

/-- The number of threads: the one asked for, or the configured one; nothing if both are zero. -/
def threads (c : Config) (asked : Option Int) : Option Int :=
  let configured : Option Int :=
    if c.performance.threads = 0 then none else some c.performance.threads
  match asked with
  | some n => if n = 0 then configured else some n
  | none => configured

/-- The path of a report that is saved in the format with a name, or in the configured one. -/
def reportPath (c : Config) (format : Option String) : String :=
  let name := match format with
    | some name => if name.isEmpty then c.defaults.format.name else name
    | none => c.defaults.format.name
  c.defaults.output ++ "." ++ name

/-- The configured languages in the order of their tables. -/
def definitions (c : Config) : List Language := c.languages.map (·.2)

/-- Turns measuring on if it is asked for, and sends measurements to a file that is named. -/
def withMetrics (c : Config) (on : Bool) (file : Option String) : Config :=
  let chosen := match file with
    | some path => if path.isEmpty then c.performance.metricsFile else path
    | none => c.performance.metricsFile
  { c with performance :=
      { c.performance with metrics := on || c.performance.metrics, metricsFile := chosen } }

end Config

end LineCensus
