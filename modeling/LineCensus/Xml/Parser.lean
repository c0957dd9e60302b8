import LineCensus.Xml.Element
import LineCensus.Xml.Declaration
import LineCensus.Text.Utf16

namespace LineCensus.Xml

open Text

/-!
# Reading XML

* `readAttributes`, `enterScope?` — the attributes of a start tag, and the namespaces inside it.
* `readContent` — the text and the elements up to an end tag.
* `skipDeclaration?` — the declaration at the start of a document.
* `parse?` — the root element of a document, if the document is well formed.

Comments and processing instructions are passed over, and the text on both sides of them is joined.
Attributes are checked and dropped, apart from the namespaces they declare.
-/

/-! ### Attributes -/

/-- A quoted text at the front, and what follows it. -/
def readQuoted? (s : List Char) : Option (List Char × List Char) :=
  match s with
  | mark :: r =>
    if mark = '"' || mark = '\'' then
      match r.dropWhile (· != mark) with
      | _ :: rest => some (r.takeWhile (· != mark), rest)
      | [] => none
    else none
  | [] => none

/-- Reads the attributes of a start tag, up to the slash or the bracket that ends it. -/
def readAttributes (d : Doctype) (element : Name) :
    Nat → List Char → Reading (List (Name × List Char) × List Char)
  | 0, _ => failure
  | fuel + 1, s =>
    match skipSpace s with
    | '/' :: r => return ([], '/' :: r)
    | '>' :: r => return ([], '>' :: r)
    | r => do
      -- White space stands in front of every attribute.
      if s.length ≤ r.length then failure
      let (name, r) ← readName? r
      let r ← dropStart? ['='] (skipSpace r)
      let (raw, r) ← readQuoted? (skipSpace r)
      let tokens := ((d.rule? element name).map (·.tokens)).getD false
      let value ← attributeValue d tokens raw
      let (rest, r) ← readAttributes d element fuel r
      return ((name, value) :: rest, r)

/-- The attributes of an element with the defaults of those that are not given. -/
def Doctype.complete (d : Doctype) (element : Name) (given : List (Name × List Char)) :
    List (Name × List Char) :=
  given ++ d.rules.filterMap fun r =>
    if r.element = element && !given.any (·.1 == r.key) then
      r.default.map (r.key, ·)
    else none

/-- The prefix that an attribute binds. -/
def boundPrefix? (n : Name) : Option (List Char) :=
  if n.space.isEmpty && n.part == "xmlns".toList then some []
  else if n.space == "xmlns".toList then some n.part
  else none

/-- No two members of the list are equal. -/
def allDistinct : List (List Char) → Bool
  | [] => true
  | x :: xs => !xs.contains x && allDistinct xs

/-- The scope inside an element with the given attributes, if these may stand together. -/
def enterScope? (scope : Scope) (attributes : List (Name × List Char)) : Option Scope := do
  let bindings := attributes.filterMap fun a => (boundPrefix? a.1).map (·, a.2)
  if !bindings.all fun b => mayBind b.1 b.2 then none
  if !allDistinct (attributes.map fun a => a.1.space ++ ':' :: a.1.part) then none
  let inner : Scope := bindings ++ scope
  let plain := attributes.filter fun a => (boundPrefix? a.1).isNone
  let full ← plain.mapM fun a => inner.expandAttribute? a.1
  if allDistinct full then return inner else none

/-! ### Elements -/

/-- A character of the text between markup. -/
def isPlain (c : Char) : Bool := c != '<' && c != '&'

mutual

/-- Reads an element behind the opening bracket of its start tag; `fuel` bounds the calls below, and
    the entities in `opened` are being read. -/
def readElement (d : Doctype) (opened : List (List Char)) (scope : Scope) :
    Nat → List Char → Reading (Element × List Char)
  | 0, _ => failure
  | fuel + 1, s => do
    let (name, r) ← readName? s
    let (given, r) ← readAttributes d name fuel r
    let inner ← enterScope? scope (d.complete name given)
    let tag := String.ofList (← inner.expandTag? name)
    match r with
    | '/' :: '>' :: r => return (.mk tag "" [], r)
    | '>' :: r =>
      let ((text, children), r) ← readContent d opened inner fuel r
      let (closing, r) ← readName? (← dropStart? ['<', '/'] r)
      let r ← dropStart? ['>'] (skipSpace r)
      if closing = name then return (.mk tag (String.ofList text) children, r) else failure
    | _ => failure

/-- Reads text and elements up to an end tag or the end of the text. -/
def readContent (d : Doctype) (opened : List (List Char)) (scope : Scope) :
    Nat → List Char → Reading ((List Char × List Element) × List Char)
  | 0, _ => failure
  | fuel + 1, s =>
    match s with
    | [] => return (([], []), [])
    | '<' :: '/' :: r => return (([], []), '<' :: '/' :: r)
    | '<' :: '!' :: '-' :: '-' :: r => do readContent d opened scope fuel (← skipComment? r)
    | '<' :: '?' :: r => do readContent d opened scope fuel (← skipInstruction? r)
    | '<' :: '!' :: r => do
      let r ← dropStart? "[CDATA[".toList r
      let n ← indexOf? "]]>".toList r
      if !(r.take n).all isChar then failure
      let ((text, children), rest) ← readContent d opened scope fuel (r.drop (n + 3))
      return ((r.take n ++ text, children), rest)
    | '<' :: r => do
      let (e, r) ← readElement d opened scope fuel r
      let ((text, children), rest) ← readContent d opened scope fuel r
      return ((text, e :: children), rest)
    | '&' :: r => do
      let (reference, r) ← readReference? r
      let (front, es) ← match reference with
        | .char c => pure ([c], [])
        | .entity name => do
          -- The text of an entity holds whole elements and does not refer to the entity.
          let t ← d.text? opened name
          draw t.length
          let (inner, rest) ← readContent d (name :: opened) scope fuel t
          if rest.isEmpty then pure inner else failure
      let ((text, children), rest) ← readContent d opened scope fuel r
      return ((front ++ text, es ++ children), rest)
    | s => do
      let run := s.takeWhile isPlain
      -- The mark that ends a literal section may not stand in a text.
      if !run.all isChar || (indexOf? "]]>".toList run).isSome then failure
      let ((text, children), rest) ← readContent d opened scope fuel (s.dropWhile isPlain)
      return ((run ++ text, children), rest)

end

/-! ### Documents -/

/-- Reads `name = "value"` behind white space, where the characters of the value are of a class. -/
def readSetting? (name : String) (p : Char → Bool) (s : List Char) :
    Option (List Char × List Char) := do
  let r ← dropStart? name.toList (← needSpace? s)
  let r ← dropStart? ['='] (skipSpace r)
  let (value, r) ← readQuoted? (skipSpace r)
  if value.all p then return (value, r) else none

/-- The text behind the declaration at the start of a document, if there is one, and whether the
    document stands alone.  The encoding it names is not used, for the text is already decoded. -/
def skipDeclaration? (s : List Char) : Option (Bool × List Char) :=
  match dropStart? "<?xml".toList s with
  | none => some (false, s)
  | some r =>
    if (r.head?.map isNameChar).getD false then some (false, s)
    else do
      let word (c : Char) := c.isAlphanum || c == '.' || c == '_' || c == '-'
      let (_, r) ← readSetting? "version" word r
      let r ← match readSetting? "encoding" word r with
        | some (value, r) => if (value.head?.map Char.isAlpha).getD false then some r else none
        | none => some r
      let (alone, r) ← match readSetting? "standalone" Char.isAlpha r with
        | some (value, r) =>
          if value = "yes".toList then some (true, r)
          else if value = "no".toList then some (false, r)
          else none
        | none => some (false, r)
      return (alone, ← dropStart? ['?', '>'] (skipSpace r))

/-- Reads a document whose lines end in line feeds. -/
def readDocument (s : List Char) : Reading Element := do
  let fuel := 4 * s.length + 8
  let (standalone, r) ← skipDeclaration? s
  let (tokens, r) ← readTokens? fuel r
  let d ← readProlog { standalone } tokens
  let (root, r) ← readElement d [] .start fuel (r.drop 1)
  if (← skipMisc? fuel r).isEmpty then return root else failure

/-- A document without its mark of order.  A null among its first two characters shows that they are
    the bytes of a text in UTF-16. -/
def decoded? (text : List Char) : Option (List Char) :=
  match text with
  | '\ufeff' :: s => some s
  | '\x00' :: _ => (decodeUtf16From .big 0 (encodeUtf8 text)).toOption
  | _ :: '\x00' :: _ => (decodeUtf16From .little 0 (encodeUtf8 text)).toOption
  | s => some s

/-- The root element of a document. -/
def parse? (text : List Char) : Option Element := do
  let s := unifyNewlines (← decoded? text)
  return (← (readDocument s).run (storeFor s.length)).1

end LineCensus.Xml
