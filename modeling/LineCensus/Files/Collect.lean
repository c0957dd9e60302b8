import LineCensus.Files.Glob

namespace LineCensus.Files

open Text

/-!
# The files that a scan is asked for

* `Contribution` — the paths that one argument or one line of input stands for, and the notices it
  gives rise to.
* `contributionOf`, `inputContribution` — those of an argument and of a line.
* `collect` — the paths of all of them, normalized, in order and each once.
-/

/-- Something about the arguments that a user should know. -/
inductive Notice where
  | missingInput (path : String)
  | noMatch (pattern : String)
  | skippedDirectory (path : String)
  deriving DecidableEq, Repr

/-- Paths that belong to a scan, and notices. -/
structure Contribution where
  paths : List String
  notices : List Notice

/-- Nothing. -/
def Contribution.none : Contribution := ⟨[], []⟩

/-- Two contributions in one. -/
def Contribution.append (a b : Contribution) : Contribution :=
  ⟨a.paths ++ b.paths, a.notices ++ b.notices⟩

/-- All contributions, or the first fault. -/
def gather : List (Except PathFault Contribution) → Except PathFault Contribution
  | [] => .ok .none
  | c :: cs =>
    match c with
    | .error e => .error e
    | .ok a => (gather cs).map a.append

/-- What a path stands for: the files below it if it is a directory to be entered, nothing if it is
    a directory otherwise, and itself if it is none or is not there. -/
def targetContribution (t : Tree) (recursive : Bool) (path : String) :
    Except PathFault Contribution :=
  let shown := Path.display path
  match t.probe shown.toList with
  | .error e => .error e
  | .ok (some (.directory access entries)) =>
    if recursive then
      .ok ⟨(t.filesBelow shown.toList (.directory access entries)).map String.ofList, []⟩
    else .ok ⟨[], [.skippedDirectory path]⟩
  | .ok _ => .ok ⟨[path], []⟩

/-- What an argument stands for.  One with a wildcard stands for the paths it fits. -/
def contributionOf (t : Tree) (lenient recursive : Bool) (arg : String) :
    Except PathFault Contribution :=
  if hasMagic arg.toList then
    match globPaths t lenient recursive arg.toList with
    | .error e => .error e
    | .ok [] => .ok ⟨[], [.noMatch arg]⟩
    | .ok found =>
      gather ((sorted (found.map String.ofList)).map (targetContribution t recursive))
  else targetContribution t recursive arg

/-- What a line of input stands for: the path on it, if there is something. -/
def inputContribution (t : Tree) (line : String) : Except PathFault Contribution :=
  let path := strip line
  if path.isEmpty then .ok .none
  else
    match t.probe (Path.display path).toList with
    | .error e => .error e
    | .ok (some _) => .ok ⟨[path], []⟩
    | .ok none => .ok ⟨[], [.missingInput path]⟩

/-- The paths of a scan and the notices about them. -/
def collect (t : Tree) (lenient recursive : Bool) (args input : List String) :
    Except PathFault Contribution :=
  (gather (input.map (inputContribution t) ++ args.map (contributionOf t lenient recursive))).map
    fun c => { c with paths := sorted (dedup (c.paths.map Path.normalize)) }

end LineCensus.Files
