import LineCensus.Path
import LineCensus.Table
import LineCensus.Text.Utf8
import LineCensus.Text.Encoding
import LineCensus.Text.Lines

namespace LineCensus.Files

open Text

/-!
# Trees of files

* `Access`, `Node` — a file with its bytes or a directory with its entries, and what the user of the
  program may do with it.
* `Tree` — all files there are, and the directory in which the program works.
* `Tree.locate` — where a path leads, or why it leads nowhere.
* `Tree.readBytes`, `writeBytes`, `appendBytes` — the content of a file.
* `Tree.listing?`, `Tree.filesBelow` — the entries of a directory, and the paths of all files below
  one as far as its directories can be listed.
* `readLines` — the lines of a source file.
-/

/-- What the user of the program may do: read a file or list a directory, write to either, and look
    for entries of a directory by their names. -/
structure Access where
  read : Bool := true
  write : Bool := true
  search : Bool := true
  deriving DecidableEq, Repr

/-- A file or a directory. -/
inductive Node where
  | file (access : Access) (bytes : List UInt8)
  | directory (access : Access) (entries : List (String × Node))

/-- An empty directory. -/
def Node.empty : Node := .directory {} []

/-- Why a path leads nowhere, or to nothing that can be used.  One with a null character is no path
    at all. -/
inductive PathFault where
  | missing
  | isDirectory
  | notDirectory
  | denied
  | tooLong
  | nullCharacter
  deriving DecidableEq, Repr

/-- The words for a fault. -/
def PathFault.text : PathFault → String
  | .missing => "No such file or directory"
  | .isDirectory => "Is a directory"
  | .notDirectory => "Not a directory"
  | .denied => "Permission denied"
  | .tooLong => "File name too long"
  | .nullCharacter => "embedded null byte"

namespace Node

/-- Whether a node is a directory. -/
def isDirectory : Node → Bool
  | .directory _ _ => true
  | .file _ _ => false

/-! ### Entries by name -/

/-- The node at the end of a list of names. -/
def get? (n : Node) : List String → Option Node
  | [] => some n
  | name :: names =>
    match n with
    | .file _ _ => none
    | .directory _ es => (Table.get? es name).bind fun m => m.get? names

/-- Puts a node at the end of a list of names; directories on the way are made. -/
def put (new : Node) : List String → Node → Node
  | [], _ => new
  | _ :: _, .file a b => .file a b
  | name :: names, .directory a es =>
    .directory a (Table.insert es name (put new names ((Table.get? es name).getD .empty)))

mutual

/-- The files at or below a node that stands at the end of `names`. -/
def contents (names : List String) : Node → List (List String × List UInt8)
  | .file _ bytes => [(names, bytes)]
  | .directory _ entries => contentsOfEntries names entries

/-- The files at or below entries of the directory at the end of `names`. -/
def contentsOfEntries (names : List String) :
    List (String × Node) → List (List String × List UInt8)
  | [] => []
  | (name, n) :: es => contents (names ++ [name]) n ++ contentsOfEntries names es

end

/-! ### Walks -/

/-- The longest name of an entry in bytes. -/
def maxName : Nat := 255

/-- The entry of a directory that a component of a path leads to. -/
def enter (entries : List (String × Node)) (names : List String) (part : List Char) :
    Except PathFault (List String) :=
  if maxName < (encodeUtf8 part).length then .error .tooLong
  else
    let name := String.ofList part
    if Table.has entries name then .ok (names ++ [name]) else .error .missing

/-- One step along a path, from the node at the end of some names.  Behind a slash at the end of a
    path nothing is looked for, so that the directory need not be open to that. -/
def step (root : Node) (names : List String) (part : List Char) : Except PathFault (List String) :=
  match root.get? names with
  | none => .error .missing
  | some (.file _ _) => .error .notDirectory
  | some (.directory access entries) =>
    if part = [] then .ok names
    else if !access.search then .error .denied
    else if part = ['.'] then .ok names
    -- The root is its own parent.
    else if part = ['.', '.'] then .ok names.dropLast
    else enter entries names part

/-- Steps along the components of a path. -/
def walk (root : Node) (names : List String) : List (List Char) → Except PathFault (List String)
  | [] => .ok names
  | part :: parts =>
    match root.step names part with
    | .error e => .error e
    | .ok next => root.walk next parts

end Node

/-- All files there are, and the names that lead to the directory in which the program works. -/
structure Tree where
  root : Node
  work : List String

namespace Tree

/-! ### Paths -/

/-- The longest path in bytes, with the mark at its end. -/
def maxPath : Nat := 4096

/-- A path that has a null character. -/
def hasNull (path : List Char) : Bool := path.contains '\x00'

/-- The names from which a path sets out. -/
def start (t : Tree) (path : List Char) : List String :=
  if path.head? = some '/' then [] else t.work

/-- Where components of a path lead. -/
def along (t : Tree) (path : List Char) (parts : List (List Char)) :
    Except PathFault (List String) :=
  if path.isEmpty then .error .missing
  else if hasNull path then .error .nullCharacter
  else if maxPath ≤ (encodeUtf8 path).length then .error .tooLong
  else t.root.walk (t.start path) parts

/-- Where a path leads. -/
def locate (t : Tree) (path : List Char) : Except PathFault (List String) :=
  t.along path (splitAtChar '/' path)

/-- The directory in which the last component of a path is looked for. -/
def parent (t : Tree) (path : List Char) : Except PathFault (List String) :=
  t.along path ((splitAtChar '/' path).dropLast ++ [['.']])

/-- The node that a path leads to. -/
def nodeAt (t : Tree) (path : List Char) : Except PathFault Node :=
  match t.locate path with
  | .error e => .error e
  | .ok names =>
    match t.root.get? names with
    | some n => .ok n
    | none => .error .missing

/-- Something is at the path. -/
def has (t : Tree) (path : List Char) : Bool := (t.nodeAt path).toOption.isSome

/-- A directory is at the path. -/
def hasDirectory (t : Tree) (path : List Char) : Bool :=
  match t.nodeAt path with
  | .ok n => n.isDirectory
  | .error _ => false

/-- Whether something is at the path.  A path that is too long, or that leads through a directory
    in which nothing may be looked for, is a fault of its own. -/
def probe (t : Tree) (path : List Char) : Except PathFault (Option Node) :=
  match t.nodeAt path with
  | .ok n => .ok (some n)
  | .error .tooLong => .error .tooLong
  | .error .denied => .error .denied
  | .error _ => .ok none

/-! ### Content -/

/-- The bytes of the file at a path. -/
def readBytes (t : Tree) (path : List Char) : Except PathFault (List UInt8) :=
  match t.nodeAt path with
  | .error e => .error e
  | .ok (.directory access _) => .error (if access.read then .isDirectory else .denied)
  | .ok (.file access bytes) => if access.read then .ok bytes else .error .denied

/-- Whether the file or directory at a path may be read. -/
def mayRead (t : Tree) (path : List Char) : Bool :=
  match t.nodeAt path with
  | .ok (.directory access _) => access.read
  | .ok (.file access _) => access.read
  | .error _ => false

/-- Puts a file at the end of some names. -/
def putFile (t : Tree) (access : Access) (bytes : List UInt8) (names : List String) : Tree :=
  { t with root := Node.put (.file access bytes) names t.root }

/-- Makes a file at a path at which nothing is. -/
def makeFile (t : Tree) (path : List Char) (bytes : List UInt8) : Except PathFault Tree :=
  match t.parent path with
  | .error e => .error e
  | .ok names =>
    match t.root.get? names with
    | some (.directory access _) =>
      if access.write then
        let name := String.ofList ((splitAtChar '/' path).getLast?.getD [])
        .ok (t.putFile {} bytes (names ++ [name]))
      else .error .denied
    | _ => .error .missing

/-- Changes the bytes of the file at a path, which is made if it is not there.  With a slash at its
    end a path stands for a directory, whether there is one or not. -/
def updateBytes (t : Tree) (path : List Char) (f : List UInt8 → List UInt8) :
    Except PathFault Tree :=
  if path.getLast? = some '/' then
    match t.parent (path.reverse.dropWhile (· == '/')).reverse with
    | .error e => .error e
    | .ok _ => .error .isDirectory
  else
    match t.locate path with
    | .error .missing => t.makeFile path (f [])
    | .error e => .error e
    | .ok names =>
      match t.root.get? names with
      | some (.file access bytes) =>
        if access.write then .ok (t.putFile access (f bytes) names) else .error .denied
      | _ => .error .isDirectory

/-- Writes the file at a path. -/
def writeBytes (t : Tree) (path : List Char) (bytes : List UInt8) : Except PathFault Tree :=
  t.updateBytes path fun _ => bytes

/-- Appends to the file at a path. -/
def appendBytes (t : Tree) (path : List Char) (bytes : List UInt8) : Except PathFault Tree :=
  t.updateBytes path (· ++ bytes)

/-! ### Listings -/

/-- The entries of the directory at a path, if it may be listed. -/
def listing? (t : Tree) (path : List Char) : Option (List (String × Node)) :=
  match t.nodeAt path with
  | .ok (.directory access entries) => if access.read then some entries else none
  | _ => none

mutual

/-- The paths of the files at or below a node that has the path `base`.  A directory that cannot be
    listed is passed over. -/
def filesBelow (t : Tree) (base : List Char) : Node → List (List Char)
  | .file _ _ => [base]
  | .directory _ entries =>
    if (t.listing? base).isSome then filesOfEntries t base entries else []

/-- The paths of the files at or below entries of the directory `base`. -/
def filesOfEntries (t : Tree) (base : List Char) : List (String × Node) → List (List Char)
  | [] => []
  | (name, n) :: es => filesBelow t (Path.child base name.toList) n ++ filesOfEntries t base es

end

end Tree

/-! ### Source files -/

/-- Why a source file has no lines. -/
inductive SourceFault where
  | path (fault : PathFault)
  | encoding (fault : DecodeFault)
  deriving DecidableEq, Repr

/-- The reason in words. -/
def SourceFault.reason : SourceFault → String
  | .path fault => fault.text
  | .encoding fault => fault.reason

/-- The message for a file that has no lines. -/
def SourceFault.message (path : String) : SourceFault → String
  | .path fault => "Cannot read " ++ path ++ ": " ++ fault.text
  | .encoding fault => "Cannot decode " ++ path ++ ": " ++ fault.reason

/-- The lines of a source text in bytes. -/
def decodeLines (bytes : List UInt8) : Except DecodeFault (List String) :=
  (decodeSource bytes).map linesOf

/-- The lines of the source file at a path. -/
def readLines (t : Tree) (path : String) : Except SourceFault (List String) :=
  match t.readBytes (Path.display path).toList with
  | .error e => .error (.path e)
  | .ok bytes => (decodeLines bytes).mapError .encoding

end LineCensus.Files
