import LineCensus.Config.Basic
import LineCensus.Language.Reading
import LineCensus.Text.Lowercase
import LineCensus.Text.Quoted

namespace LineCensus.Config

open Text Schema LineCensus.Language

/-!
# Reading configurations

* `readPerformance`, `readDefaults` — the two tables of settings.
* `readLanguages` — the languages.  One without a name is named after its key, and one with another
  name has the key among its aliases.
* `read`, `ofValue` — a whole configuration.  A key that means nothing is an issue, but in the table
  of a language.
-/

/-- A number of at least one. -/
def positive (v : Value) : Checked { n : Nat // 0 < n } :=
  match integerFrom 1 v with
  | .error e => .error e
  | .ok n => if h : 0 < n then .ok ⟨n, h⟩ else refuse (.below 1)

/-- The table that says how a scan is run. -/
def readPerformance (t : Table Value) : Checked Performance :=
  let usual := standard.performance
  (both (fieldOr t ["default_threads"] usual.threads count) <|
    both (fieldOr t ["chunk_size"] ⟨usual.chunk, usual.chunk_pos⟩ positive) <|
    both (fieldOr t ["enable_metrics"] usual.metrics truth) <|
    both (fieldOr t ["metrics_file"] usual.metricsFile text) <|
      onlyKeys t ["default_threads", "chunk_size", "enable_metrics", "metrics_file"]).map
    fun (threads, chunk, metrics, file, _) => ⟨threads, chunk.1, metrics, file, chunk.2⟩

/-- The name of a format in letters of any case. -/
def formatOf (v : Value) : Checked Format :=
  match text v with
  | .error e => .error e
  | .ok s =>
    match Format.ofName? (lowercase s) with
    | some f => .ok f
    | none =>
      refuse (.rule ("output_format must be json, csv or xml, got " ++ quoted (lowercase s)))

/-- The table of what a scan does unless it is told otherwise. -/
def readDefaults (t : Table Value) : Checked Defaults :=
  let usual := standard.defaults
  (both (fieldOr t ["recursive"] usual.recursive truth) <|
    both (fieldOr t ["no_progress"] usual.noProgress truth) <|
    both (fieldOr t ["output_format"] usual.format formatOf) <|
    both (fieldOr t ["output_file"] usual.output text) <|
      onlyKeys t ["recursive", "no_progress", "output_format", "output_file"]).map
    fun (recursive, noProgress, format, output, _) => ⟨recursive, noProgress, format, output⟩

/-! ### Languages -/

/-- Whether a value is a given text. -/
def isText (s : String) (v : Value) : Bool := v.text? == some s

/-- The aliases of a language with the key of its table.  The key is no alias if it is the name in
    letters of any case, or if it is among the aliases already. -/
def keyedAliases (key : String) (name : Value) (aliases : List Value) :
    Except Misuse (List Value) :=
  match name.text? with
  | some n =>
    .ok (if lowercase key ≠ lowercase n && !aliases.any (isText key) then aliases ++ [.text key]
      else aliases)
  | none => .error .notText

/-- The table of a language with a name and with the key among its names. -/
def keyed (key : String) (t : Table Value) : Except Misuse (Table Value) := do
  let aliases ← match t.get? "aliases" with
    | some v => itemsOf v
    | none => pure []
  let name := (t.get? "name").getD (.text key)
  let aliases ← keyedAliases key name aliases
  return (t.insert "name" name).insert "aliases" (.list aliases)

/-- A table with a name and with its key among its names; any other value as it is. -/
def keyedValue (key : String) : Value → Except Misuse Value
  | .table t => (keyed key t).map .table
  | v => .ok v

/-- A language under its key. -/
def entryOf (key : String) (c : Checked Language) : Checked (String × Language) :=
  within (.key key) (c.map fun l => (key, l))

/-- The languages of a table.  Names are given to all of them before any is read. -/
def readLanguages : Value → Except Misuse (Checked (Table Language))
  | .table t => do
    let keyed ← t.mapM fun e => (keyedValue e.1 e.2).map fun v => (e.1, v)
    let languages ← keyed.mapM fun e => (Language.ofValue e.2).map (entryOf e.1)
    return gather languages
  | _ => .ok (refuse .notTable)

/-! ### Whole configurations -/

/-- A configuration from a table. -/
def read (t : Table Value) : Except Misuse (Checked Config) := do
  let languages ← misusable t ["languages"] [] readLanguages
  return (both (fieldOr t ["performance"] standard.performance
      (record "PerformanceConfig" readPerformance)) <|
    both (fieldOr t ["defaults"] standard.defaults (record "DefaultsConfig" readDefaults)) <|
    both languages <| onlyKeys t ["performance", "defaults", "languages"]).map
    fun (performance, defaults, languages, _) => ⟨performance, defaults, languages⟩

/-- A configuration from any value. -/
def ofValue : Value → Except Misuse (Checked Config)
  | .table t => read t
  | _ => .ok (refuse (.notRecord "AppConfig"))

end LineCensus.Config
