import LineCensus.Text.Search
import LineCensus.Language.Basic

namespace LineCensus.Path

open Text

/-!
# Paths

* `Root` — how a path begins; two leading slashes are a root of their own.
* `resolveParts` — components with every `..` taken back as far as it can be.
* `normalize` — the one spelling of a path that identifies a file and orders it.
* `child` — the path of an entry of a directory.
* `display` — a path without repeated slashes and single dots.
* `suffix` — the end of the last component from its last dot on, and `extension` its normal form.
-/

/-- How a path begins. -/
inductive Root where
  | relative
  | slash
  | doubleSlash
  deriving DecidableEq, Repr

/-- The root of a path. -/
def rootOf (s : List Char) : Root :=
  match s.takeWhile (· == '/') with
  | [] => .relative
  -- Exactly two slashes are told apart; three or more are as one.
  | [_, _] => .doubleSlash
  | _ => .slash

/-- The characters of a root. -/
def Root.text : Root → List Char
  | .relative => []
  | .slash => ['/']
  | .doubleSlash => ['/', '/']

/-- The components of a path without empty ones and single dots. -/
def parts (s : List Char) : List (List Char) :=
  (splitAtChar '/' s).filter fun p => p != [] && p != ['.']

/-- Puts one component on a stack of those before it, nearest first.  A parent takes the nearest
    directory away; at the root there is nothing to take away. -/
def pushPart (root : Root) (stack : List (List Char)) (part : List Char) : List (List Char) :=
  if part ≠ ['.', '.'] then part :: stack
  else match stack with
    | [] => if root = .relative then [part] else []
    | top :: rest => if top = ['.', '.'] then part :: stack else rest

/-- The components with parents resolved. -/
def resolveParts (root : Root) (ps : List (List Char)) : List (List Char) :=
  (ps.foldl (pushPart root) []).reverse

/-- Components with slashes between them. -/
def joinParts : List (List Char) → List Char
  | [] => []
  | [p] => p
  | p :: ps => p ++ '/' :: joinParts ps

/-- The text of a path; an empty one is the working directory. -/
def build (root : Root) (ps : List (List Char)) : List Char :=
  match root.text ++ joinParts ps with
  | [] => ['.']
  | s => s

/-- The normal form of a path. -/
def normal (s : List Char) : List Char :=
  build (rootOf s) (resolveParts (rootOf s) (parts s))

/-- `normal` on strings. -/
def normalize (path : String) : String := String.ofList (normal path.toList)

/-- The path of an entry of a directory; an empty name leaves a slash. -/
def child (dir name : List Char) : List Char :=
  if dir.isEmpty || dir.getLast? = some '/' then dir ++ name else dir ++ '/' :: name

/-- A path as it is shown: parents stay, for they may lead through links. -/
def display (path : String) : String :=
  String.ofList (build (rootOf path.toList) (parts path.toList))

/-- The end of a name from its last dot on, if something stands on both sides of the dot. -/
def nameSuffix (name : List Char) : List Char :=
  let ext := (name.reverse.takeWhile (· != '.')).reverse
  if !ext.isEmpty && ext.length + 1 < name.length then '.' :: ext else []

/-- The suffix of the last component of a path. -/
def suffix (path : List Char) : List Char := nameSuffix ((parts path).getLast?.getD [])

/-- The extension of a file by which its language is found. -/
def extension (path : String) : String :=
  normalizeExtension (String.ofList (suffix path.toList))

end LineCensus.Path
