import LineCensus.Xml.Names
import LineCensus.Text.Digit

namespace LineCensus.Xml

open Text

/-!
# Entities, references and the values of attributes

* `readReference?` — a reference to a character or to an entity.
* `Doctype` — what a document declares: entities, and the rules for attributes.
* `Reading` — reading with a store of characters that the texts of entities are drawn from.
* `attributeValue` — the value of an attribute from its text.

An entity is not read inside its own text.  If part of the declarations is not at hand, an entity of
which nothing is known stands for nothing inside an attribute.
-/

/-! ### References -/

/-- What stands behind an ampersand. -/
inductive Reference where
  | char (c : Char)
  | entity (name : List Char)

/-- The characters of the entities that need no declaration. -/
def predefined : List (List Char × Char) :=
  [("lt".toList, '<'), ("gt".toList, '>'), ("amp".toList, '&'), ("quot".toList, '"'),
   ("apos".toList, '\'')]

/-- The number of a list of digits in some base, given the value of a digit. -/
def readBase? (base : Nat) (value? : Char → Option Nat) (digits : List Char) : Option Nat :=
  if digits.isEmpty then none
  else digits.foldl (fun n c => do return (← n) * base + (← value? c)) (some 0)

/-- The character with a number, if it may stand in a document. -/
def charOf? (n : Nat) : Option Char :=
  if n < 0xD800 || (0xDFFF < n && n < 0x110000) then
    if isChar (Char.ofNat n) then some (Char.ofNat n) else none
  else none

/-- Reads a reference behind its ampersand. -/
def readReference? (s : List Char) : Option (Reference × List Char) :=
  match s with
  | '#' :: s => do
    let (base, value?, s) : Nat × (Char → Option Nat) × List Char := match s with
      | 'x' :: s => (16, hexValue?, s)
      | s => (10, digitValue?, s)
    let digits := s.takeWhile fun c => (value? c).isSome
    let n ← readBase? base value? digits
    let c ← charOf? n
    let r ← dropStart? [';'] (s.drop digits.length)
    return (.char c, r)
  | s => do
    let (name, r) ← readPlainName? s
    let r ← dropStart? [';'] r
    match predefined.find? (·.1 == name) with
    | some (_, c) => return (.char c, r)
    | none => return (.entity name, r)

/-! ### Declarations -/

/-- What a declared entity stands for: a text, or something that is not part of the document. -/
inductive Entity where
  | text (s : List Char)
  | outside

/-- What is declared of an attribute: whether its value is a list of tokens, and its default. -/
structure AttributeRule where
  element : Name
  key : Name
  tokens : Bool
  default : Option (List Char)

/-- What a document declares.  `partly` says that part of the declarations is not at hand, and
    `standalone` that this does not matter; `halted` that the rest of them is not heeded. -/
structure Doctype where
  entities : List (List Char × Entity) := []
  rules : List AttributeRule := []
  standalone : Bool := false
  partly : Bool := false
  halted : Bool := false

namespace Doctype

/-- Declares an entity, unless it is declared already or needs no declaration. -/
def addEntity (d : Doctype) (name : List Char) (e : Entity) : Doctype :=
  if d.halted || predefined.any (·.1 == name) || d.entities.any (·.1 == name) then d
  else { d with entities := d.entities ++ [(name, e)] }

/-- The rule for an attribute of an element. -/
def rule? (d : Doctype) (element key : Name) : Option AttributeRule :=
  d.rules.find? fun r => r.element = element && r.key = key

/-- Adds a rule for an attribute, unless there is one already. -/
def addRule (d : Doctype) (r : AttributeRule) : Doctype :=
  if d.halted || (d.rule? r.element r.key).isSome then d
  else { d with rules := d.rules ++ [r] }

/-- The entities may have declarations that are not at hand. -/
def lenient (d : Doctype) : Bool := d.partly && !d.standalone

/-- The text of an entity that is not in `opened`. -/
def text? (d : Doctype) (opened : List (List Char)) (name : List Char) : Option (List Char) :=
  match d.entities.find? (·.1 == name) with
  | some (_, .text s) => if opened.contains name then none else some s
  | _ => none

/-- The number of characters in the texts of all entities. -/
def size (d : Doctype) : Nat :=
  (d.entities.map fun e => match e.2 with
    | .text s => s.length
    | .outside => 0).foldr (· + ·) 0

end Doctype

/-! ### Reading with a store -/

/-- Reading that draws the texts of entities from a store of characters. -/
abbrev Reading := StateT Nat Option

/-- The store for a document of `n` characters: entities may make it a hundred times as long, and
    any document eight million characters long. -/
def storeFor (n : Nat) : Nat := Nat.max (99 * n) (8388608 - n)

/-- Takes `n` characters from the store. -/
def draw (n : Nat) : Reading Unit := do
  let left ← get
  if n ≤ left then set (left - n) else failure

/-! ### Values of attributes -/

/-- The value of an attribute from its text: references replaced, and white space by blanks.  `fuel`
    bounds the length of the text with those of the entities in it. -/
def plainValue (d : Doctype) : Nat → List (List Char) → List Char → Reading (List Char)
  | 0, _, _ => failure
  | _, _, [] => return []
  | fuel + 1, opened, c :: s =>
    if c = '<' || !isChar c then failure
    else if c = '&' then
      match readReference? s with
      | none => failure
      | some (.char c, r) => return c :: (← plainValue d fuel opened r)
      | some (.entity name, r) => do
        let front ← match d.text? opened name with
          | some t => do
            draw t.length
            plainValue d fuel (name :: opened) t
          | none =>
            if d.lenient && !d.entities.any (·.1 == name) then pure [] else failure
        return front ++ (← plainValue d fuel opened r)
    else return (if isSpace c then ' ' else c) :: (← plainValue d fuel opened s)

/-- A text without blanks at its ends and with single blanks in it. -/
def singleBlanks (s : List Char) : List Char :=
  (splitAtChar ' ' s).filter (!·.isEmpty) |> List.intersperse [' '] |>.flatten

/-- The value of an attribute from its text; a list of tokens has single blanks between them. -/
def attributeValue (d : Doctype) (tokens : Bool) (s : List Char) : Reading (List Char) := do
  let value ← plainValue d (s.length + d.size + 1) [] s
  return if tokens then singleBlanks value else value

end LineCensus.Xml
