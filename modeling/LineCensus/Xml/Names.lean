import LineCensus.Xml.NameTable
import LineCensus.Text.CaseTable
import LineCensus.Text.Search

namespace LineCensus.Xml

open Text

/-!
# Characters and names of XML

* `isChar`, `isNameStart`, `isNameChar` — the character classes of the standard.
* `readName?` — a name at the front of a text, with its prefix if it has one.
* `Scope` — the namespaces that are bound at a place, and `Scope.expand?` the full form of a name.
-/

/-- A character that may stand in a document. -/
def isChar (c : Char) : Bool :=
  let n := c.toNat
  n == 9 || n == 10 || n == 13 || (0x20 ≤ n && n ≤ 0xD7FF) || (0xE000 ≤ n && n ≤ 0xFFFD) ||
    0x10000 ≤ n

/-- White space of the markup. -/
def isSpace (c : Char) : Bool := c == ' ' || c == '\t' || c == '\n' || c == '\r'

/-- The text behind white space. -/
def skipSpace (s : List Char) : List Char := s.dropWhile isSpace

/-- The text behind white space that must be there. -/
def needSpace? (s : List Char) : Option (List Char) :=
  if (s.head?.map isSpace).getD false then some (skipSpace s) else none

/-- A character with which a name may begin. -/
def isNameStart (c : Char) : Bool :=
  c.isAlpha || c == '_' || inRanges letterRanges c.toNat

/-- A character of a name. -/
def isNameChar (c : Char) : Bool :=
  isNameStart c || c.isDigit || c == '-' || c == '.' || inRanges markRanges c.toNat

/-- A name without a colon at the front of a text. -/
def readPlainName? : List Char → Option (List Char × List Char)
  | c :: s =>
    if isNameStart c then some (c :: s.takeWhile isNameChar, s.dropWhile isNameChar) else none
  | [] => none

/-- A name: a prefix, which may be empty, and a local part. -/
structure Name where
  space : List Char
  part : List Char
  deriving DecidableEq

/-- A name at the front of a text.  It holds one colon at most, and that between two names. -/
def readName? (s : List Char) : Option (Name × List Char) := do
  let (first, r) ← readPlainName? s
  match r with
  | ':' :: r =>
    let (second, r) ← readPlainName? r
    if r.head? = some ':' then none
    return (⟨first, second⟩, r)
  | r => return (⟨[], first⟩, r)

/-- Prefixes with the namespaces they stand for, nearest first.  The empty prefix has the default
    namespace. -/
abbrev Scope := List (List Char × List Char)

/-- The namespace of the prefix `xml`. -/
def xmlSpace : List Char := "http://www.w3.org/XML/1998/namespace".toList

/-- The namespace of namespace declarations. -/
def xmlnsSpace : List Char := "http://www.w3.org/2000/xmlns/".toList

/-- The bindings of every document. -/
def Scope.start : Scope := [("xml".toList, xmlSpace)]

/-- The namespace bound to a prefix. -/
def Scope.find? (scope : Scope) (space : List Char) : Option (List Char) :=
  ((show List _ from scope).find? fun b => b.1 == space).map (·.2)

/-- A local part in its namespace. -/
def inSpace (space part : List Char) : List Char :=
  if space.isEmpty then part else '\x7b' :: space ++ '\x7d' :: part

/-- The full form of the tag of an element. -/
def Scope.expandTag? (scope : Scope) (n : Name) : Option (List Char) :=
  match scope.find? n.space with
  | some space => some (inSpace space n.part)
  | none => if n.space.isEmpty then some n.part else none

/-- The full form of the name of an attribute; the default namespace is not for attributes. -/
def Scope.expandAttribute? (scope : Scope) (n : Name) : Option (List Char) :=
  if n.space.isEmpty then some n.part else (scope.find? n.space).map (inSpace · n.part)

/-- A binding that a document may declare. -/
def mayBind (space uri : List Char) : Bool :=
  !uri.contains '\x7d' && space != "xmlns".toList && uri != xmlnsSpace &&
    ((space == "xml".toList) == (uri == xmlSpace)) && (space.isEmpty || !uri.isEmpty)

end LineCensus.Xml
