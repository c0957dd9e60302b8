import LineCensus.Language.Basic
import LineCensus.Schema.Scalar

namespace LineCensus.Language

open Text Schema

/-!
# Reading comment grammars

* `Misuse` — a value that cannot even be looked through for the parts it should have.
* `readExtensions`, `readBlocks` — extensions and block comments, which have several spellings.
* `read` — a comment grammar from a table; `toValue` shows one.
-/

/-- A value without parts, or with parts that are no texts, where texts were looked for. -/
inductive Misuse where
  | noParts
  | notText
  deriving DecidableEq, Repr

/-- A text among extensions. -/
def extensionOf (v : Value) : Except Misuse String :=
  match v.text? with
  | some s => .ok (normalizeExtension s)
  | none => .error .notText

/-- The items of a list, or the keys of a table. -/
def partsOf : Value → Except Misuse (List Value)
  | .list items => .ok items
  | .table entries => .ok (entries.map fun e => .text e.1)
  | _ => .error .noParts

/-- The characters of a text, the items of a list, or the keys of a table. -/
def itemsOf (v : Value) : Except Misuse (List Value) :=
  match v.text? with
  | some s => .ok (s.toList.map fun c => .text (String.ofList [c]))
  | none => partsOf v

/-- Extensions: one text, a list of texts, or the keys of a table. -/
def readExtensions (v : Value) : Except Misuse (Checked (List String)) := do
  let items ← if v.text?.isSome then pure [v] else partsOf v
  let exts ← items.mapM extensionOf
  return .ok (sorted (dedup exts))

/-- Delimiters from a table. -/
def readPair (t : Table Value) : Checked Delimiters :=
  (both (field t ["start"] nonEmptyText) (field t ["end"] nonEmptyText)).map
    fun (s, e) => ⟨s.1, e.1, s.2, e.2⟩

/-- Delimiters as a table or as a list of two. -/
def readDelimiters : Value → Checked Delimiters
  | .list [s, e] => readPair [("start", s), ("end", e)]
  | v => record "BlockComment" readPair v

/-- The length of the first list that is no pair. -/
def oddPair? (items : List Value) : Option Nat :=
  items.findSome? fun v => match v with
    | .list parts => if parts.length = 2 then none else some parts.length
    | _ => none

/-- Block comments: a list of delimiters. -/
def readBlocks (v : Value) : Except Misuse (Checked (List Delimiters)) :=
  match itemsOf v with
  | .error e => .error e
  | .ok items =>
    match oddPair? items with
    | some n => .ok (refuse (.rule ("block comment pair needs 2 items, got " ++ numeral n)))
    | none => .ok (each readDelimiters items)

/-- A field with a default whose value may be misused. -/
def misusable {α : Type} (t : Table Value) (keys : List String) (default : α)
    (read : Value → Except Misuse (Checked α)) : Except Misuse (Checked α) :=
  match firstOf? t keys with
  | some (k, v) => (read v).map (within (.key k))
  | none => .ok (.ok default)

/-- The grammar of fields that are right one by one, if its tokens are. -/
def ofFields (name : { s : String // s ≠ "" }) (aliases extensions lineComments : List String)
    (blockComments : List Delimiters) (nested : Bool) (directiveMark : Option String) :
    Checked Language :=
  if hl : ∀ token ∈ lineComments, token ≠ "" then
    if hd : directiveMark ≠ some "" then
      .ok ⟨name.1, aliases, extensions, lineComments, blockComments, nested, directiveMark, name.2,
        hl, hd⟩
    else refuse (.rule "preprocessor_prefix must be non-empty when set")
  else refuse (.rule "line comment tokens must be non-empty")

/-- A comment grammar from a table. -/
def read (t : Table Value) : Except Misuse (Checked Language) := do
  let extensions ← misusable t ["extensions"] [] readExtensions
  let blocks ← misusable t ["block_comments", "multi_line_comment"] [] readBlocks
  let fields :=
    both (field t ["name"] nonEmptyText) <|
    both (fieldOr t ["aliases"] [] (list text)) <|
    both extensions <|
    both (fieldOr t ["line_comments", "single_line_comment"] [] (list text)) <|
    both blocks <|
    both (fieldOr t ["nested", "nested_comments"] false truth)
      (fieldOr t ["preprocessor_prefix"] none (optional text))
  return match fields with
    | .error e => .error e
    | .ok (name, aliases, extensions, lineComments, blockComments, nested, mark) =>
      ofFields name aliases extensions lineComments blockComments nested mark

/-- A comment grammar from any value. -/
def ofValue : Value → Except Misuse (Checked Language)
  | .table t => read t
  | _ => .ok (refuse (.notRecord "LanguageDefinition"))

/-- A list of texts as a value. -/
def textsValue (ss : List String) : Value := .list (ss.map .text)

/-- What is known of a language, as a document. -/
def toValue (l : Language) : Value :=
  .table
    [("name", .text l.name), ("aliases", textsValue l.aliases),
     ("extensions", textsValue (sorted (dedup l.extensions))),
     ("line_comments", textsValue l.lineComments),
     ("block_comments", .list (l.blockComments.map fun p => textsValue [p.opening, p.closing])),
     ("nested", .bool l.nested),
     ("preprocessor_prefix", (l.directiveMark.map Value.text).getD .null),
     ("lookup_names", textsValue l.lookupNames)]

end LineCensus.Language
