import LineCensus.Value
import LineCensus.Excess
import LineCensus.Decimal.Dyadic
import LineCensus.Text.Search
import LineCensus.Text.Utf16

namespace LineCensus.Json

open Text

/-!
# Reading JSON

* `Problem`, `Fault` — what is wrong with a text and how much of the text is left there.
* `readString`, `readNumber`, `readValue` — a string, a number and any value at the front of a text,
  with what follows it.
* `parse` — the value of a whole text.

A text may have surrogates, raw or as escapes; only two escapes in a row make a pair.  `NaN` and
the infinities are numbers.  Of members with one name the last counts, in the place of the
first.  An array or an object weighs one level of nesting.
-/

/-- What is wrong with a text. -/
inductive Problem where
  | byteOrderMark
  | value
  | propertyName
  | colon
  | comma
  | controlCharacter
  | unterminatedString
  | escape
  | unicodeEscape
  | extraData
  | excess (e : Excess)
  deriving DecidableEq, Repr

/-- The words for a problem. -/
def Problem.text : Problem → String
  | .byteOrderMark => "Unexpected UTF-8 BOM (decode using utf-8-sig)"
  | .value => "Expecting value"
  | .propertyName => "Expecting property name enclosed in double quotes"
  | .colon => "Expecting ':' delimiter"
  | .comma => "Expecting ',' delimiter"
  | .controlCharacter => "Invalid control character at"
  | .unterminatedString => "Unterminated string starting at"
  | .escape => "Invalid \\escape"
  | .unicodeEscape => "Invalid \\uXXXX escape"
  | .extraData => "Extra data"
  | .excess e => e.text

/-- A problem and the number of characters from its place to the end of the text. -/
structure Fault where
  problem : Problem
  remaining : Nat
  deriving DecidableEq, Repr

/-- The place `offset` letters into the text, as line and column from one. -/
def position (text : Letters) (offset : Nat) : Nat × Nat :=
  let front := text.take offset
  (front.count (.char '\n') + 1, (front.reverse.takeWhile (· != .char '\n')).length + 1)

/-- The message for a fault in `text`. -/
def Fault.message (text : Letters) (f : Fault) : String :=
  let offset := text.length - f.remaining
  let (line, column) := position text offset
  f.problem.text ++ ": line " ++ numeral line ++ " column " ++ numeral column ++
    " (char " ++ numeral offset ++ ")"

/-- White space between tokens. -/
def isSpace (c : Char) : Bool := c == ' ' || c == '\t' || c == '\n' || c == '\r'

/-- The text from its first token on. -/
def skipSpace (s : Letters) : Letters := s.dropWhile (Letter.isChar isSpace)

/-! ### Strings -/

/-- The value of a hexadecimal digit. -/
def digit? : Letter → Option Nat
  | .char c => hexValue? c
  | .surrogate _ => none

/-- The number of four hexadecimal digits. -/
def unit? (a b c d : Letter) : Option Nat := do
  let a ← digit? a
  let b ← digit? b
  let c ← digit? c
  let d ← digit? d
  return ((a * 16 + b) * 16 + c) * 16 + d

/-- The character of a one-letter escape. -/
def escaped? (c : Letter) : Option Char :=
  if c = '"' then some '"'
  else if c = '\\' then some '\\'
  else if c = '/' then some '/'
  else if c = 'b' then some '\x08'
  else if c = 'f' then some '\x0c'
  else if c = 'n' then some '\n'
  else if c = 'r' then some '\r'
  else if c = 't' then some '\t'
  else none

/-- A string and what follows it. -/
abbrev StringRest := Letters × Letters

/-- Puts a letter in front of the string that was read. -/
def consLetter (c : Letter) : Except Fault StringRest → Except Fault StringRest
  | .ok (s, rest) => .ok (c :: s, rest)
  | .error e => .error e

/-- Reads four hexadecimal digits that do not end the text. -/
def readUnit? : Letters → Option (Nat × Letters)
  | a :: b :: c :: d :: s => if s.isEmpty then none else (unit? a b c d).map (·, s)
  | _ => none

/-- Reads the escape of a second surrogate, if one follows. -/
def readLowSurrogate : Letters → Except Fault (Option (Nat × Letters))
  | .char '\\' :: .char 'u' :: s =>
    -- An escape that ends the text is left to be complained of when its turn comes.
    if (s.drop 4).isEmpty then .ok none
    else match readUnit? s with
      | none => .error ⟨.unicodeEscape, s.length + 1⟩
      | some (v, r) => .ok (if isLowSurrogate v then some (v, r) else none)
  | _ => .ok none

/-- Reads the digits of an escape, and a whole second escape if the two are a pair of surrogates. -/
def readEscape (s : Letters) : Except Fault (Letter × Letters) :=
  match readUnit? s with
  | none => .error ⟨.unicodeEscape, s.length + 1⟩
  | some (u, r) =>
    if isHighSurrogate u then
      match readLowSurrogate r with
      | .error e => .error e
      | .ok none => .ok (.ofCode u, r)
      | .ok (some (v, r)) => .ok (.ofCode (joinSurrogates u v), r)
    else .ok (.ofCode u, r)

theorem readUnit?_length {s r : Letters} {u : Nat} (h : readUnit? s = some (u, r)) :
    r.length < s.length := by
  unfold readUnit? at h
  split at h
  · split at h
    · cases h
    · simp only [Option.map_eq_some_iff, Prod.mk.injEq] at h
      obtain ⟨_, _, _, rfl⟩ := h
      simp only [List.length_cons]
      omega
  · cases h

theorem readLowSurrogate_length {s r : Letters} {v : Nat}
    (h : readLowSurrogate s = .ok (some (v, r))) : r.length < s.length := by
  unfold readLowSurrogate at h
  split at h
  · split at h
    · cases h
    · split at h
      · cases h
      · next hu =>
        split at h
        · cases h
          have := readUnit?_length hu
          simp only [List.length_cons]
          omega
        · cases h
  · cases h

/-- An escape leaves a shorter text. -/
theorem readEscape_length {s r : Letters} {c : Letter} (h : readEscape s = .ok (c, r)) :
    r.length < s.length := by
  unfold readEscape at h
  split at h
  · cases h
  · next hu =>
    have h₁ := readUnit?_length hu
    split at h
    · split at h
      · cases h
      · cases h
        exact h₁
      · next hl =>
        simp only [Except.ok.injEq, Prod.mk.injEq] at h
        exact h.2 ▸ Nat.lt_trans (readLowSurrogate_length hl) h₁
    · cases h
      exact h₁

/-- Reads a string behind its opening mark; `opening` is the text from that mark on. -/
def readString (opening : Letters) : Letters → Except Fault StringRest
  | [] => .error ⟨.unterminatedString, opening.length⟩
  | c :: s =>
    if c = '"' then .ok ([], s)
    else if c = '\\' then
      match s with
      | [] => .error ⟨.unterminatedString, opening.length⟩
      | e :: s =>
        if e = 'u' then
          match h : readEscape s with
          | .error f => .error f
          | .ok (c, r) =>
            have := readEscape_length h
            consLetter c (readString opening r)
        else
          match escaped? e with
          | some c => consLetter c (readString opening s)
          | none => .error ⟨.escape, s.length + 2⟩
    else if c.code < 32 then .error ⟨.controlCharacter, s.length + 1⟩
    else consLetter c (readString opening s)
termination_by s => s.length

/-! ### Numbers -/

/-- The fraction of a number: its digits, and what follows. -/
def readFraction : List Char → List Char × List Char
  | '.' :: s =>
    let digits := s.takeWhile isDigit
    if digits.isEmpty then ([], '.' :: s) else (digits, s.dropWhile isDigit)
  | s => ([], s)

/-- The exponent of a number, if there is one, and what follows. -/
def readExponent (s : List Char) : Option Int × List Char :=
  match s with
  | c :: r =>
    if c = 'e' || c = 'E' then
      let (negative, r) := match r with
        | '-' :: r => (true, r)
        | '+' :: r => (false, r)
        | r => (false, r)
      let digits := r.takeWhile isDigit
      if digits.isEmpty then (none, s)
      else
        let n : Int := readDigits digits
        (some (if negative then -n else n), r.dropWhile isDigit)
    else (none, s)
  | [] => (none, [])

/-- The whole part of a number: a zero or digits that begin with another one. -/
def readWhole? : List Char → Option (List Char × List Char)
  | '0' :: s => some (['0'], s)
  | s =>
    let digits := s.takeWhile isDigit
    if digits.isEmpty then none else some (digits, s.dropWhile isDigit)

/-- Reads a number.  It is whole unless it has a fraction or an exponent. -/
def readNumber? (s : List Char) :
    Option (Except Excess (Value Letters) × List Char) := do
  let (negative, s) := match s with
    | '-' :: s => (true, s)
    | s => (false, s)
  let (whole, s) ← readWhole? s
  let (fraction, s) := readFraction s
  let (exponent, s) := readExponent s
  if fraction.isEmpty && exponent.isNone then
    let n : Except Excess Nat := readWithin whole
    return (n.map fun n => .int (if negative then -(n : Int) else n), s)
  else
    let x := Decimal.ofDecimal (readDigits (whole ++ fraction))
      (exponent.getD 0 - fraction.length)
    return (.ok (.float (if negative then -x else x)), s)

/-! ### Values -/

/-- The words with a fixed meaning. -/
def literals : List (String × Value Letters) :=
  [("null", .null), ("true", .bool true), ("false", .bool false), ("NaN", .float (0.0 / 0.0)),
   ("Infinity", .float (1.0 / 0.0)), ("-Infinity", .float (-1.0 / 0.0))]

/-- A character of a number or of a word. -/
def isWordChar (c : Char) : Bool := c.isAlphanum || c == '+' || c == '-' || c == '.'

/-- The characters of a number or of a word at the front of a text. -/
def wordFront : Letters → List Char
  | .char c :: s => if isWordChar c then c :: wordFront s else []
  | _ => []

/-- Reads a word with a fixed meaning or a number, character by character. -/
def readWord? (s : List Char) : Option (Except Excess (Value Letters) × List Char) :=
  match literals.findSome? (fun e => (dropStart? e.1.toList s).map fun r => (e.2, r)) with
  | some (v, r) => some (.ok v, r)
  | none => readNumber? s

/-- Reads a word with a fixed meaning or a number. -/
def readPlain (s : Letters) : Except Fault (Value Letters × Letters) :=
  let front := wordFront s
  match readWord? front with
  | some (.ok v, r) => .ok (v, s.drop (front.length - r.length))
  | some (.error e, _) => .error ⟨.excess e, s.length⟩
  | none => .error ⟨.value, s.length⟩

/-- Reads the name of a member and the colon behind it. -/
def readName (s : Letters) : Except Fault (Letters × Letters) :=
  match s with
  | .char '"' :: r =>
    match readString s r with
    | .error e => .error e
    | .ok (name, r) =>
      match skipSpace r with
      | .char ':' :: r => .ok (name, skipSpace r)
      | r => .error ⟨.colon, r.length⟩
  | s => .error ⟨.propertyName, s.length⟩

mutual

/-- Reads a value; `fuel` bounds the calls below this one, and `room` the levels. -/
def readValue : Nat → Nat → Letters → Except Fault (Value Letters × Letters)
  | 0, _, s => .error ⟨.value, s.length⟩
  | fuel + 1, room, s =>
    match room, s with
    | _, .char '"' :: r =>
      match readString s r with
      | .error e => .error e
      | .ok (q, r) => .ok (.text q, r)
    | 0, .char '\x7b' :: _ => .error ⟨.excess .nesting, s.length⟩
    | 0, .char '[' :: _ => .error ⟨.excess .nesting, s.length⟩
    | room + 1, .char '\x7b' :: r =>
      match skipSpace r with
      | .char '\x7d' :: r => .ok (.table [], r)
      | r =>
        match readMembers fuel room r with
        | .error e => .error e
        | .ok (members, r) => .ok (.table (Table.ofList members), r)
    | room + 1, .char '[' :: r =>
      match skipSpace r with
      | .char ']' :: r => .ok (.list [], r)
      | r =>
        match readItems fuel room r with
        | .error e => .error e
        | .ok (items, r) => .ok (.list items, r)
    | _, s => readPlain s

/-- Reads the items of an array up to its closing bracket. -/
def readItems : Nat → Nat → Letters → Except Fault (List (Value Letters) × Letters)
  | 0, _, s => .error ⟨.value, s.length⟩
  | fuel + 1, room, s =>
    match readValue fuel room s with
    | .error e => .error e
    | .ok (v, r) =>
      match skipSpace r with
      | .char ']' :: r => .ok ([v], r)
      | .char ',' :: r =>
        match readItems fuel room (skipSpace r) with
        | .error e => .error e
        | .ok (vs, r) => .ok (v :: vs, r)
      | r => .error ⟨.comma, r.length⟩

/-- Reads the members of an object up to its closing brace. -/
def readMembers : Nat → Nat → Letters → Except Fault (List (Letters × Value Letters) × Letters)
  | 0, _, s => .error ⟨.value, s.length⟩
  | fuel + 1, room, s =>
    match readName s with
    | .error e => .error e
    | .ok (name, r) =>
      match readValue fuel room r with
      | .error e => .error e
      | .ok (v, r) =>
        match skipSpace r with
        | .char '\x7d' :: r => .ok ([(name, v)], r)
        | .char ',' :: r =>
          match readMembers fuel room (skipSpace r) with
          | .error e => .error e
          | .ok (ms, r) => .ok ((name, v) :: ms, r)
        | r => .error ⟨.comma, r.length⟩

end

/-- The value of a whole text.  Two calls for every letter are enough. -/
def parse (s : Letters) : Except Fault (Value Letters) :=
  if s.head? = some (.char '\ufeff') then .error ⟨.byteOrderMark, s.length⟩
  else
    match readValue (2 * s.length + 2) maxNesting (skipSpace s) with
    | .error e => .error e
    | .ok (v, r) =>
      match skipSpace r with
      | [] => .ok v
      | r => .error ⟨.extraData, r.length⟩

end LineCensus.Json
