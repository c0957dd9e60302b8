import LineCensus.Value
import LineCensus.Text.Blank
import LineCensus.Text.Digit

namespace LineCensus.Xml

open Text

/-!
# XML elements

* `Element` — a tag with the text or the elements in it, and `Element.depth` how deep they go.
* `Containers` — the tags that hold lists, with the tag of the items in each.
* `Element.ofValue`, `Element.toValue` — a document as an element, and an element as a document.
* `Element.write` — the text of a document, indented by two.
-/

/-- An element.  Its text is what stands in it beside elements; attributes are not kept. -/
inductive Element (τ : Type := String) where
  | mk (tag text : τ) (children : List (Element τ))

variable {τ : Type}

/-- The tag of an element. -/
def Element.tag : Element τ → τ
  | .mk tag _ _ => tag

mutual

/-- The number of elements that stand one inside the other, this one among them. -/
def Element.depth : Element τ → Nat
  | .mk _ _ children => depthOfAll children + 1

/-- The greatest depth of some elements. -/
def depthOfAll : List (Element τ) → Nat
  | [] => 0
  | e :: es => Nat.max e.depth (depthOfAll es)

end

/-- Tags that hold lists, and the tag of their items. -/
abbrev Containers (τ : Type := String) := Table τ τ

section

variable [Spelled τ] [DecidableEq τ]

mutual

/-- The element `tag` with the value in it. -/
def Element.ofValue (containers : Containers τ) (tag : τ) : Value τ → Element τ
  | .table entries => .mk tag (Spelled.ofString "") (ofEntries containers entries)
  | .list items =>
    .mk tag (Spelled.ofString "")
      (ofItems containers ((containers.get? tag).getD (Spelled.ofString "")) items)
  | .text s => .mk tag s []
  | .int n => .mk tag (Spelled.ofString (intNumeral n)) []
  | _ => .mk tag (Spelled.ofString "") []

/-- The elements of the items of a list. -/
def ofItems (containers : Containers τ) (tag : τ) : List (Value τ) → List (Element τ)
  | [] => []
  | v :: vs => Element.ofValue containers tag v :: ofItems containers tag vs

/-- The elements of the entries of a table. -/
def ofEntries (containers : Containers τ) : List (τ × Value τ) → List (Element τ)
  | [] => []
  | (key, v) :: es => Element.ofValue containers key v :: ofEntries containers es

end

end

mutual

/-- The value of an element: a list in a container, a table of the elements in it, or its text. -/
def Element.toValue (containers : Containers) : Element → Value
  | .mk tag text children =>
    if containers.has tag then .list (toItems containers children)
    else if children.isEmpty then .text (String.ofList (trim text.toList))
    else .table (Table.ofList (toEntries containers children))

/-- The values of elements. -/
def toItems (containers : Containers) : List Element → List Value
  | [] => []
  | e :: es => e.toValue containers :: toItems containers es

/-- The values of elements under their tags. -/
def toEntries (containers : Containers) : List Element → List (String × Value)
  | [] => []
  | e :: es => (e.tag, e.toValue containers) :: toEntries containers es

end

/-- A character of a text. -/
def writeChar (c : Char) : List Char :=
  if c = '&' then "&amp;".toList
  else if c = '<' then "&lt;".toList
  else if c = '>' then "&gt;".toList
  else [c]

/-- A letter of a text.  Surrogates are written as they are. -/
def writeLetter : Letter → Letters
  | .char c => letters (writeChar c)
  | .surrogate n => [.surrogate n]

/-- A line break before an element `depth` levels deep. -/
def lineBreak (depth : Nat) : List Char := '\n' :: List.replicate (2 * depth) ' '

/-- A text between brackets. -/
def bracketed (opening : String) (tag : Letters) (closing : String) : Letters :=
  ofString opening ++ tag ++ ofString closing

section

variable [Spelled τ]

mutual

/-- The text of an element `depth` levels deep. -/
def Element.writeAt (depth : Nat) : Element τ → Letters
  | .mk tag text children =>
    let name := Spelled.spelling tag
    let content := Spelled.spelling text
    if children.isEmpty then
      if content.isEmpty then bracketed "<" name " />"
      else bracketed "<" name ">" ++ content.flatMap writeLetter ++ bracketed "</" name ">"
    else
      bracketed "<" name ">" ++ writeChildren (depth + 1) children ++ letters (lineBreak depth) ++
        bracketed "</" name ">"

/-- The texts of elements, each on a line of its own. -/
def writeChildren (depth : Nat) : List (Element τ) → Letters
  | [] => []
  | e :: es => letters (lineBreak depth) ++ e.writeAt depth ++ writeChildren depth es

end

/-- The declaration at the start of a document. -/
def declaration : String := "<?xml version=\"1.0\" encoding=\"UTF-8\"?>\n"

/-- The text of a document with the given root. -/
def Element.write (root : Element τ) : Letters :=
  ofString declaration ++ root.writeAt 0 ++ [.char '\n']

end

end LineCensus.Xml
