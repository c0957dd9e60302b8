import LineCensus.Text.Blank
import LineCensus.Text.Lowercase
import LineCensus.Text.Order

namespace LineCensus

open Text

/-!
# Comment grammars

* `Delimiters` — the two tokens of a block comment.
* `Language` — what the census knows of a language: its names, its file extensions, its comment
  tokens, whether block comments nest, and the mark of a preprocessor directive.
* `normalizeExtension` — the form in which extensions are kept and compared.
* `Language.lookupNames` — the names under which a language is found.
-/

/-- The opening and the closing token of a block comment; neither is empty. -/
structure Delimiters where
  opening : String
  closing : String
  opening_ne : opening ≠ "" := by decide
  closing_ne : closing ≠ "" := by decide
  deriving DecidableEq

/-- The comment grammar of one language. -/
structure Language where
  name : String
  aliases : List String := []
  extensions : List String := []
  lineComments : List String := []
  blockComments : List Delimiters := []
  nested : Bool := false
  directiveMark : Option String := none
  name_ne : name ≠ "" := by decide
  lineComments_ne : ∀ token ∈ lineComments, token ≠ "" := by decide
  directive_ne : directiveMark ≠ some "" := by decide
  deriving DecidableEq

/-- An extension without surrounding blanks and leading dots, in lowercase. -/
def normalizeExtension (ext : String) : String :=
  String.ofList (lower ((trim ext.toList).dropWhile (· = '.')))

/-- The lowercase name and aliases, each once. -/
def Language.lookupNames (l : Language) : List String :=
  dedup ((l.name :: l.aliases).map lowercase)

/-- The language nests comments with these delimiters: it nests comments at all, and the two
    tokens can be told apart. -/
def Language.nests (l : Language) (pair : Delimiters) : Bool :=
  l.nested && pair.opening != pair.closing

end LineCensus
