import LineCensus.Xml.Entity

namespace LineCensus.Xml

open Text

/-!
# Tokens of the declarations before the root

* `Token` — words, literals and punctuation of a document type; comments and instructions count as
  one token, white space as none.
* `nextToken?` — the token at the front of a text.
* `readTokens?` — all tokens before the root element.

What may follow a token is part of the token: a literal is never followed by a word at once.
-/

/-- A token of a document type. -/
inductive Token where
  | name (n : Name)
  /-- Name characters that are no name. -/
  | word
  /-- A name with a sign behind it that says how often it may occur. -/
  | counted
  | literal (s : List Char)
  /-- A name behind a number sign. -/
  | hash (n : List Char)
  | percent
  /-- A reference to a parameter entity. -/
  | parameter
  | openSquare
  | closeSquare
  | openRound
  /-- A closing bracket with the sign behind it that says how often the group may occur. -/
  | closeRound (sign : Option Char)
  | comma
  | bar
  /-- The start of a declaration with its keyword. -/
  | declare (keyword : List Char)
  | close
  /-- A comment or a processing instruction. -/
  | remark
  deriving DecidableEq

/-- A name without a colon. -/
def Token.plain (s : String) : Token := .name ⟨[], s.toList⟩

/-! ### Comments and instructions -/

/-- The text behind the first `token`, if all characters before it may stand in a document. -/
def skipThrough? (token : List Char) (s : List Char) : Option (List Char) := do
  let n ← indexOf? token s
  if (s.take n).all isChar then return s.drop (n + token.length) else none

/-- The text behind a comment, given what follows its opening. -/
def skipComment? (s : List Char) : Option (List Char) := do
  dropStart? ['>'] (← skipThrough? ['-', '-'] s)

/-- The text behind a processing instruction, given what follows its opening. -/
def skipInstruction? (s : List Char) : Option (List Char) := do
  let (target, r) ← readPlainName? s
  if target.map Char.toLower = "xml".toList then none
  match dropStart? ['?', '>'] r with
  | some r => return r
  | none => skipThrough? ['?', '>'] (← needSpace? r)

/-- The text behind white space, comments and processing instructions. -/
def skipMisc? : Nat → List Char → Option (List Char)
  | 0, _ => none
  | fuel + 1, s =>
    match skipSpace s with
    | '<' :: '!' :: '-' :: '-' :: r => do skipMisc? fuel (← skipComment? r)
    | '<' :: '?' :: r => do skipMisc? fuel (← skipInstruction? r)
    | r => some r

/-! ### Single tokens -/

/-- The text goes on with white space or one of the marks. -/
def goesOnWith (marks : List Char) (s : List Char) : Bool :=
  (s.head?.map fun c => isSpace c || marks.contains c).getD false

/-- A token, if the text goes on with white space or one of the marks. -/
def before? (marks : List Char) (t : Token) (r : List Char) : Option (Token × List Char) :=
  if goesOnWith marks r then some (t, r) else none

/-- A literal behind its opening mark. -/
def readLiteral? (mark : Char) (s : List Char) : Option (Token × List Char) := do
  let literal := s.takeWhile (· != mark)
  let r ← dropStart? [mark] (s.dropWhile (· != mark))
  if literal.all isChar then before? ['>', '%', '['] (.literal literal) r else none

/-- The token of a run of name characters and colons. -/
def wordToken (run : List Char) : Token :=
  match readPlainName? run with
  | some (first, []) => .name ⟨[], first⟩
  | some (first, _ :: second) =>
    if !second.isEmpty && second.all isNameChar then .name ⟨first, second⟩ else .word
  | none => .word

/-- A name or a word, with the sign behind it. -/
def readWord? (s : List Char) : Option (Token × List Char) :=
  let inRun (c : Char) := isNameChar c || c == ':'
  let token := wordToken (s.takeWhile inRun)
  match s.dropWhile inRun with
  | c :: r =>
    if c = '?' || c = '*' || c = '+' then (if token = .word then none else some (.counted, r))
    else if (s.takeWhile inRun).isEmpty then none
    else before? ['>', ')', ',', '|', '[', '%'] token (c :: r)
  | [] => none

/-- What stands behind an opening angle bracket, but for the start of an element. -/
def readMarkup? : List Char → Option (Token × List Char)
  | '?' :: r => (skipInstruction? r).map (.remark, ·)
  | '!' :: '-' :: '-' :: r => (skipComment? r).map (.remark, ·)
  | '!' :: r =>
    let inKeyword (c : Char) := c.isAlpha || c == '_'
    let keyword := r.takeWhile inKeyword
    if keyword.isEmpty then none else before? [] (.declare keyword) (r.dropWhile inKeyword)
  | _ => none

/-- What stands behind a percent sign. -/
def readPercent? (s : List Char) : Option (Token × List Char) :=
  if goesOnWith ['%'] s then some (.percent, s)
  else do
    let (_, r) ← readPlainName? s
    return (.parameter, ← dropStart? [';'] r)

/-- What stands behind a number sign. -/
def readHash? (s : List Char) : Option (Token × List Char) := do
  let (n, r) ← readPlainName? s
  before? ['>', ')', '|', '%'] (.hash n) r

/-- What stands behind a closing round bracket. -/
def readClosing? : List Char → Option (Token × List Char)
  | c :: r =>
    if c = '?' || c = '*' || c = '+' then some (.closeRound (some c), r)
    else before? ['>', ')', ',', '|'] (.closeRound none) (c :: r)
  | [] => none

/-- The token at the front of a text that does not begin with white space. -/
def nextToken? : List Char → Option (Token × List Char)
  | [] => none
  | c :: r =>
    if c = '"' || c = '\'' then readLiteral? c r
    else if c = '<' then readMarkup? r
    else if c = '%' then readPercent? r
    else if c = '#' then readHash? r
    else if c = '(' then some (.openRound, r)
    else if c = ')' then readClosing? r
    else if c = '[' then some (.openSquare, r)
    else if c = ']' then some (.closeSquare, r)
    else if c = ',' then some (.comma, r)
    else if c = '|' then some (.bar, r)
    else if c = '>' then some (.close, r)
    else readWord? (c :: r)

/-- The text begins with the start tag of an element. -/
def startsElement : List Char → Bool
  | '<' :: c :: _ => isNameStart c
  | _ => false

/-- The tokens up to the first start tag, and the text from there on. -/
def readTokens? : Nat → List Char → Option (List Token × List Char)
  | 0, _ => none
  | fuel + 1, s =>
    let s := skipSpace s
    if startsElement s then some ([], s)
    else do
      let (t, r) ← nextToken? s
      let (ts, r) ← readTokens? fuel r
      return (t :: ts, r)

end LineCensus.Xml
