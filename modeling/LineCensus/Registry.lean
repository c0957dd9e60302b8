import LineCensus.Override
import LineCensus.Language.Builtin

namespace LineCensus

open Text

/-!
# The registry of languages

* `Claimant` — a language with its place in the list of definitions.
* `Registry.add` — the registry with one more definition: a definition of a name that is there
  replaces the old one, and the last claim on a name or an extension wins.
* `Registry.build` — the registry of a list of definitions, and `reassignments` the extensions that
  change hands on the way.
* `Registry.get?`, `forExtension?`, `resolve` — the language of a name, of an extension and of a
  path.
* `Registry.all` — the languages in the order of their names.
-/

/-- A language and its place among the definitions, which tells equal definitions apart. -/
structure Claimant where
  index : Nat
  language : Language

/-- Languages by lowercase name and by extension. -/
structure Registry where
  names : Table Claimant
  extensions : Table Claimant

namespace Registry

/-- No languages. -/
def empty : Registry := ⟨[], []⟩

/-- Takes every claim away from a definition. -/
def drop (r : Registry) (c : Claimant) : Registry where
  -- A name that has passed to another definition stays with that one.
  names := r.names.filter fun e => !(c.language.lookupNames.contains e.1 && e.2.index == c.index)
  extensions := r.extensions.filter fun e => e.2.index != c.index

/-- Takes the claims away from a definition of the same name, if there is one. -/
def makeRoom (r : Registry) (l : Language) : Registry :=
  match r.names.get? (lowercase l.name) with
  -- An alias may have taken the name over; then it is the claims of its owner that go.
  | some old => r.drop old
  | none => r

/-- The extensions of a language in order, each once. -/
def sortedExtensions (l : Language) : List String := sorted (dedup l.extensions)

/-- Gives a definition all names and extensions it claims. -/
def claim (r : Registry) (c : Claimant) : Registry where
  names := c.language.lookupNames.foldl (fun t k => t.insert k c) r.names
  extensions := (sortedExtensions c.language).foldl (fun t e => t.insert e c) r.extensions

/-- The registry with one more definition. -/
def add (r : Registry) (c : Claimant) : Registry := (r.makeRoom c.language).claim c

/-- Definitions with their places. -/
def claimants (ls : List Language) : List Claimant := ls.zipIdx.map fun p => ⟨p.2, p.1⟩

/-- The registry of a list of definitions. -/
def build (ls : List Language) : Registry := (claimants ls).foldl add empty

/-- The registry of the languages that are always known and of configured ones. -/
def withBuiltins (configured : List Language) : Registry := build (builtinLanguages ++ configured)

/-! ### Reassigned extensions -/

/-- An extension that passes from one language to another. -/
structure Reassignment where
  ext : String
  old : String
  new : String
  deriving DecidableEq, Repr

/-- The extensions that a definition takes from others. -/
def taken (r : Registry) (c : Claimant) : List Reassignment :=
  (sortedExtensions c.language).filterMap fun e =>
    ((r.makeRoom c.language).extensions.get? e).map fun old =>
      ⟨e, old.language.name, c.language.name⟩

/-- The extensions that change hands while definitions are added. -/
def reassignmentsFrom (r : Registry) : List Claimant → List Reassignment
  | [] => []
  | c :: cs => r.taken c ++ reassignmentsFrom (r.add c) cs

/-- The extensions that change hands while the registry of a list is built. -/
def reassignments (ls : List Language) : List Reassignment :=
  reassignmentsFrom empty (claimants ls)

/-! ### Looking up -/

/-- The definition of a name or alias in any case. -/
def get? (r : Registry) (name : String) : Option Claimant := r.names.get? (lowercase name)

/-- The definition of an extension. -/
def forExtension? (r : Registry) (ext : String) : Option Claimant :=
  r.extensions.get? (normalizeExtension ext)

/-- The languages that can be looked up by some name, in the order of their names. -/
def all (r : Registry) : List Claimant :=
  let firsts := r.names.foldl (fun t e => Table.insertNew t e.2.language.name e.2) []
  sortOn (fun c => lowercase c.language.name) (firsts.map (·.2))

/-- The extensions of every language, in order. -/
def owned (r : Registry) (c : Claimant) : List String :=
  sorted ((r.extensions.filter fun e => e.2.language.name == c.language.name).map (·.1))

/-- An override that names no known language. -/
structure UnknownOverride where
  key : String
  language : String
  deriving DecidableEq, Repr

/-- The message for an unknown language. -/
def UnknownOverride.message (u : UnknownOverride) : String :=
  "Override '" ++ u.key ++ "=" ++ u.language ++ "' names an unknown language '" ++ u.language ++ "'"

/-- The override that applies to a path: one for the path itself, or else one for its extension. -/
def overrideFor? (overrides : Overrides) (path : String) : Option (String × String) :=
  let norm := Path.normalize path
  [norm, Path.extension norm].findSome? fun key =>
    if key.isEmpty then none else (overrides.get? key).map (key, ·)

/-- The language of a path: the one an override names, or else the owner of its extension. -/
def resolve (r : Registry) (path : String) (overrides : Overrides) :
    Except UnknownOverride (Option Claimant) :=
  match overrideFor? overrides path with
  | some (key, language) =>
    match r.get? language with
    | some c => .ok (some c)
    | none => .error ⟨key, language⟩
  | none =>
    let ext := Path.extension (Path.normalize path)
    .ok (if ext.isEmpty then none else r.forExtension? ext)

end Registry

end LineCensus
