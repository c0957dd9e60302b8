import LineCensus.Files.Tree

namespace LineCensus.Files

open Text

/-!
# Patterns of file names

* `Pattern` — pieces of a pattern for one name: any run, any character, a class, a character.
* `Pattern.parse`, `Pattern.matchesName` — the pieces of a pattern, and the names it fits.
* `hasMagic` — a path with a wildcard in it.
* `globPaths` — the paths that a pattern for paths fits.

Names that begin with a dot are hidden: only a pattern that begins with a dot itself fits them.
-/

/-! ### One name -/

/-- A class of characters: runs of text, where the last character of one and the first of the next
    bound a range. -/
structure CharClass where
  negated : Bool
  runs : List (List Char)
  deriving DecidableEq, Repr

/-- A piece of a pattern. -/
inductive Piece where
  | anyRun
  | anyChar
  | oneOf (c : CharClass)
  | char (c : Char)
  deriving DecidableEq, Repr

/-- A pattern for a name. -/
abbrev Pattern := List Piece

/-- The ranges between neighbouring runs. -/
def rangesOf : List (List Char) → List (Char × Char)
  | a :: b :: rest =>
    (match a.getLast?, b.head? with
      | some lo, some hi => [(lo, hi)]
      | _, _ => []) ++ rangesOf (b :: rest)
  | _ => []

/-- Whether a character is in a class. -/
def CharClass.has (k : CharClass) (c : Char) : Bool :=
  let inside := k.runs.any (·.contains c) ||
    (rangesOf k.runs).any fun r => r.1.toNat ≤ c.toNat && c.toNat ≤ r.2.toNat
  inside != k.negated

/-- Cuts the text of a class at the hyphens that bound ranges.  A hyphen among the first `skip`
    characters, or the one right behind a range, stands for itself. -/
def cutRuns : Nat → List Char → List (List Char)
  | _, [] => [[]]
  | 0, '-' :: s => [] :: cutRuns 2 s
  | skip, c :: s =>
    match cutRuns (skip - 1) s with
    | run :: runs => (c :: run) :: runs
    | [] => [[c]]

/-- A hyphen at the end stands for itself. -/
def keepFinalHyphen (runs : List (List Char)) : List (List Char) :=
  match runs.reverse with
  | [] :: last :: front => ((last ++ ['-']) :: front).reverse
  | _ => runs

/-- Takes out ranges that are empty, together with the two characters that bound them. -/
def dropEmptyRanges : List (List Char) → List (List Char)
  | [] => []
  | a :: rest =>
    match dropEmptyRanges rest with
    | [] => [a]
    | b :: tail =>
      match a.getLast?, b.head? with
      | some lo, some hi =>
        if hi.toNat < lo.toNat then (a.dropLast ++ b.drop 1) :: tail else a :: b :: tail
      | _, _ => a :: b :: tail

/-- The piece for the text between the brackets of a class. -/
def classPiece (text : List Char) : Piece :=
  let skip := if text.head? = some '!' then 2 else 1
  match dropEmptyRanges (keepFinalHyphen (cutRuns skip text)) with
  -- No character is left out.
  | ['!'] :: [] => .anyChar
  | ('!' :: run) :: runs => .oneOf ⟨true, run :: runs⟩
  | runs => .oneOf ⟨false, runs⟩

/-- The text of a class and what follows it, given what follows its opening bracket.  A closing
    bracket at the front, also behind an exclamation mark, stands for itself. -/
def splitClass? (s : List Char) : Option (List Char × List Char) :=
  let head := match s with
    | '!' :: ']' :: _ => 2
    | '!' :: _ => 1
    | ']' :: _ => 1
    | _ => 0
  let body := (s.drop head).takeWhile (· != ']')
  match (s.drop head).dropWhile (· != ']') with
  | _ :: rest => some (s.take head ++ body, rest)
  | [] => none

/-- The pieces of a pattern; `fuel` bounds their number. -/
def parsePieces : Nat → List Char → Pattern
  | 0, _ => []
  | _, [] => []
  | fuel + 1, c :: s =>
    if c = '*' then .anyRun :: parsePieces fuel s
    else if c = '?' then .anyChar :: parsePieces fuel s
    else if c = '[' then
      match splitClass? s with
      | some (text, rest) => classPiece text :: parsePieces fuel rest
      -- A bracket that nothing closes stands for itself.
      | none => .char '[' :: parsePieces fuel s
    else .char c :: parsePieces fuel s

/-- The pieces of a pattern. -/
def Pattern.parse (s : List Char) : Pattern := parsePieces s.length s

/-- Whether a piece fits a character. -/
def Piece.fits (p : Piece) (c : Char) : Bool :=
  match p with
  | .anyRun | .anyChar => true
  | .oneOf k => k.has c
  | .char d => c == d

/-- The rests of a text, the text itself first. -/
def rests : List Char → List (List Char)
  | [] => [[]]
  | c :: s => (c :: s) :: rests s

/-- Whether a pattern fits a name. -/
def Pattern.matchesName : Pattern → List Char → Bool
  | [], s => s.isEmpty
  | .anyRun :: ps, s => (rests s).any (Pattern.matchesName ps)
  | p :: ps, c :: s => p.fits c && Pattern.matchesName ps s
  | _ :: _, [] => false

/-! ### Paths -/

/-- A path with a wildcard in it. -/
def hasMagic (path : List Char) : Bool := path.any fun c => c == '*' || c == '?' || c == '['

/-- A hidden name or pattern. -/
def isHidden (name : List Char) : Bool := name.head? = some '.'

/-- The pattern for directories at any depth. -/
def isRecursivePattern (s : List Char) : Bool := s = ['*', '*']

/-- A directory part without the slashes at its end, and the part behind its last slash. -/
def splitPath (path : List Char) : List Char × List Char :=
  let base := (path.reverse.takeWhile (· != '/')).reverse
  let front := path.take (path.length - base.length)
  let dir := (front.reverse.dropWhile (· == '/')).reverse
  (if dir.isEmpty then front else dir, base)

/-- A path from a directory and a part below it; either may be empty. -/
def joinPath (dir base : List Char) : List Char :=
  if dir.isEmpty || base.isEmpty then dir ++ base
  else if dir.getLast? = some '/' then dir ++ base else dir ++ '/' :: base

/-- The entries of the directory at a path, none if it cannot be listed; the empty path is the
    working directory. -/
def entriesAt (t : Tree) (dir : List Char) : List (String × Node) :=
  (t.listing? (if dir.isEmpty then ['.'] else dir)).getD []

/-- The entries of the directory at a path by name, directories only if asked for. -/
def namesAt (t : Tree) (dirsOnly : Bool) (dir : List Char) : List (List Char) :=
  ((entriesAt t dir).filter fun e => !dirsOnly || e.2.isDirectory).map (·.1.toList)

mutual

/-- The paths from `base` of all entries below the node at the path `dir` that are not hidden and
    not below hidden ones.  A directory that cannot be listed is passed over. -/
def visibleBelow (t : Tree) (dirsOnly : Bool) (dir base : List Char) : Node → List (List Char)
  | .file _ _ => []
  | .directory _ es =>
    if (t.listing? dir).isSome then visibleEntries t dirsOnly dir base es else []

/-- The paths of all visible entries of a list and below them. -/
def visibleEntries (t : Tree) (dirsOnly : Bool) (dir base : List Char) :
    List (String × Node) → List (List Char)
  | [] => []
  | (name, n) :: es =>
    let path := joinPath base name.toList
    (if isHidden name.toList || (dirsOnly && !n.isDirectory) then []
      else path :: visibleBelow t dirsOnly (joinPath dir name.toList) path n) ++
      visibleEntries t dirsOnly dir base es

end

/-- What the last part of a pattern fits in a directory, as paths below it.  The pattern for any
    depth fits the directory itself, and if the reading of patterns is `lenient`, as it is in some
    releases of the library, it does so whether there is such a directory or not. -/
def globLast (t : Tree) (lenient recursive dirsOnly : Bool) (dir base : List Char) :
    Except PathFault (List (List Char)) :=
  if !hasMagic base then
    -- A slash at the end asks for a directory.
    if base.isEmpty then .ok (if t.hasDirectory dir then [[]] else [])
    else .ok (if t.has (joinPath dir base) then [base] else [])
  else if Tree.hasNull dir then .error .nullCharacter
  else if recursive && isRecursivePattern base then
    .ok ((if lenient || dir.isEmpty || t.hasDirectory dir then [[]] else []) ++
      visibleEntries t dirsOnly dir [] (entriesAt t dir))
  else
    let pattern := Pattern.parse base
    .ok ((namesAt t dirsOnly dir).filter fun name =>
      (isHidden base || !isHidden name) && pattern.matchesName name)

/-- The paths that a pattern fits; `fuel` bounds the depth of the pattern. -/
def globParts (t : Tree) (lenient recursive : Bool) :
    Nat → Bool → List Char → Except PathFault (List (List Char))
  | 0, _, _ => .ok []
  | fuel + 1, dirsOnly, path =>
    let (dir, base) := splitPath path
    if !hasMagic path then
      let there := if base.isEmpty then t.hasDirectory dir else t.has path
      .ok (if there then [path] else [])
    else if dir.isEmpty then globLast t lenient recursive dirsOnly [] base
    else do
      let dirs ←
        if dir ≠ path && hasMagic dir then globParts t lenient recursive fuel true dir
        else pure [dir]
      let found ← dirs.mapM fun d =>
        (globLast t lenient recursive dirsOnly d base).map fun names => names.map (Path.child d)
      return found.flatten

/-- The paths that a pattern fits. -/
def globPaths (t : Tree) (lenient recursive : Bool) (pattern : List Char) :
    Except PathFault (List (List Char)) :=
  (globParts t lenient recursive (pattern.length + 1) false pattern).map
    fun paths => paths.filter (!·.isEmpty)

end LineCensus.Files
