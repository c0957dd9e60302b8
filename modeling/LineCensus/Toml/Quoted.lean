import LineCensus.Text.Digit
import LineCensus.Text.Search

namespace LineCensus.Toml

open Text

/-!
# Keys and quoted text of TOML

* `skipBlanks`, `skipComment?`, `skipFiller?` — what may stand between tokens.
* `readText?` — quoted text: basic or literal, on one line or on several.
* `readKey?` — a key with its parts between dots.

Readers take what is left of a document and give what they read with what follows it.  Line feeds
end lines.
-/

/-! ### Between tokens -/

/-- A character that stands nowhere in a document but at the end of a line. -/
def isControl (c : Char) : Bool := (c.toNat < 32 && c != '\t') || c.toNat == 127

/-- White space within a line. -/
def isBlank (c : Char) : Bool := c == ' ' || c == '\t'

/-- White space within or between lines. -/
def isSpace (c : Char) : Bool := isBlank c || c == '\n'

/-- The text behind white space within the line. -/
def skipBlanks (s : List Char) : List Char := s.dropWhile isBlank

/-- The text from the end of the line on, if a comment begins here. -/
def skipComment? : List Char → Option (List Char)
  | '#' :: s =>
    if (s.takeWhile (· != '\n')).any isControl then none else some (s.dropWhile (· != '\n'))
  | s => some s

/-- The text behind comments and white space of any kind; `fuel` bounds the comments. -/
def skipFillerWithin : Nat → List Char → Option (List Char)
  | 0, s => some s
  | fuel + 1, s =>
    match s.dropWhile isSpace with
    | '#' :: r => (skipComment? ('#' :: r)).bind (skipFillerWithin fuel)
    | r => some r

/-- The text behind comments and white space of any kind. -/
def skipFiller? (s : List Char) : Option (List Char) := skipFillerWithin (s.length + 1) s

/-! ### Escapes -/

/-- The character of a one-letter escape. -/
def escaped? (c : Char) : Option Char :=
  if c = 'b' then some '\x08'
  else if c = 't' then some '\t'
  else if c = 'n' then some '\n'
  else if c = 'f' then some '\x0c'
  else if c = 'r' then some '\r'
  else if c = '"' || c = '\\' then some c
  else none

/-- The character with a code point in hexadecimal. -/
def scalar? (digits : List Char) : Option Char := do
  let values ← digits.mapM hexValue?
  let n := values.foldl (fun n d => n * 16 + d) 0
  if n.isValidChar then some (Char.ofNat n) else none

/-- Reads a code point of `width` hexadecimal digits. -/
def readScalar? (width : Nat) (s : List Char) : Option (List Char × List Char) :=
  if s.length < width then none else (scalar? (s.take width)).map fun c => ([c], s.drop width)

/-- Reads an escape behind its backslash.  In text on several lines a backslash at the end of a line
    stands for nothing, and so does the white space behind it. -/
def readEscape? (multiline : Bool) : List Char → Option (List Char × List Char)
  | [] => none
  | c :: s =>
    if c = 'u' then readScalar? 4 s
    else if c = 'U' then readScalar? 8 s
    else if multiline && c = '\n' then some ([], s.dropWhile isSpace)
    else if multiline && isBlank c then
      match skipBlanks s with
      | [] => some ([], [])
      | e :: r => if e = '\n' then some ([], r.dropWhile isSpace) else none
    else (escaped? c).map fun e => ([e], s)

theorem length_dropWhile_le (p : Char → Bool) (s : List Char) :
    (s.dropWhile p).length ≤ s.length := (List.dropWhile_suffix p).length_le

/-- A code point leaves no more text than it was given. -/
theorem readScalar?_length {width : Nat} {s t r : List Char}
    (h : readScalar? width s = some (t, r)) : r.length ≤ s.length := by
  unfold readScalar? at h
  split at h
  · cases h
  · simp only [Option.map_eq_some_iff, Prod.mk.injEq] at h
    obtain ⟨_, _, _, rfl⟩ := h
    rw [List.length_drop]
    exact Nat.sub_le s.length width

/-- An escape leaves no more text than it was given. -/
theorem readEscape?_length {multiline : Bool} {s t r : List Char}
    (h : readEscape? multiline s = some (t, r)) : r.length ≤ s.length := by
  unfold readEscape? at h
  split at h
  · cases h
  · next c s =>
    apply Nat.le_succ_of_le
    split at h
    · exact readScalar?_length h
    · split at h
      · exact readScalar?_length h
      · split at h
        · cases h
          exact length_dropWhile_le isSpace s
        · split at h
          -- White space may run to the end of the line, and from there over further lines.
          · have hblanks : (skipBlanks s).length ≤ s.length := length_dropWhile_le isBlank s
            split at h
            · cases h
              exact Nat.zero_le _
            · next e q hq =>
              rw [hq, List.length_cons] at hblanks
              split at h
              · cases h
                have hspace := length_dropWhile_le isSpace q
                omega
              · cases h
          · simp only [Option.map_eq_some_iff, Prod.mk.injEq] at h
            obtain ⟨_, _, _, rfl⟩ := h
            exact Nat.le_refl _

/-! ### Quoted text -/

/-- Puts characters in front of what was read. -/
def ahead (front : List Char) : Option (List Char × List Char) → Option (List Char × List Char) :=
  Option.map fun p => (front ++ p.1, p.2)

/-- Reads basic text behind its opening mark. -/
def readBasic? (multiline : Bool) : List Char → Option (List Char × List Char)
  | [] => none
  | c :: s =>
    if c = '"' then
      if multiline then
        match dropStart? ['"', '"'] s with
        | some r => some ([], r)
        | none => ahead ['"'] (readBasic? multiline s)
      else some ([], s)
    else if c = '\\' then
      match h : readEscape? multiline s with
      | none => none
      | some (t, r) =>
        have := readEscape?_length h
        ahead t (readBasic? multiline r)
    else if isControl c && !(multiline && c = '\n') then none
    else ahead [c] (readBasic? multiline s)
termination_by s => s.length

/-- Reads literal text on one line behind its opening mark. -/
def readLiteral? (s : List Char) : Option (List Char × List Char) :=
  let body := s.takeWhile (· != '\'')
  match s.dropWhile (· != '\'') with
  | _ :: r => if body.any isControl then none else some (body, r)
  | [] => none

/-- Reads literal text on several lines behind its opening mark. -/
def readLiteralLines? (s : List Char) : Option (List Char × List Char) :=
  match indexOf? "'''".toList s with
  | none => none
  | some n =>
    let body := s.take n
    if body.any (fun c => isControl c && c != '\n') then none else some (body, s.drop (n + 3))

/-- Up to two more marks right behind the closing ones belong to the text. -/
def withMarks (mark : Char) : List Char × List Char → List Char × List Char
  | (body, a :: b :: s) =>
    if a = mark then if b = mark then (body ++ [a, b], s) else (body ++ [a], b :: s)
    else (body, a :: b :: s)
  | (body, [a]) => if a = mark then (body ++ [a], []) else (body, [a])
  | (body, []) => (body, [])

/-- The text behind one line feed, if it begins with one. -/
def dropNewline : List Char → List Char
  | '\n' :: s => s
  | s => s

/-- Reads quoted text on one line. -/
def readLine? : List Char → Option (List Char × List Char)
  | '"' :: s => readBasic? false s
  | '\'' :: s => readLiteral? s
  | _ => none

/-- Reads quoted text of any kind. -/
def readText? (s : List Char) : Option (List Char × List Char) :=
  match dropStart? "\"\"\"".toList s with
  | some r => (readBasic? true (dropNewline r)).map (withMarks '"')
  | none =>
    match dropStart? "'''".toList s with
    | some r => (readLiteralLines? (dropNewline r)).map (withMarks '\'')
    | none => readLine? s

/-! ### Keys -/

/-- A character of a key without quotes. -/
def isKeyChar (c : Char) : Bool :=
  (65 ≤ c.toNat && c.toNat ≤ 90) || (97 ≤ c.toNat && c.toNat ≤ 122) || isDigit c || c == '-' ||
    c == '_'

/-- Reads one part of a key. -/
def readKeyPart? (s : List Char) : Option (String × List Char) :=
  let bare := s.takeWhile isKeyChar
  if bare.isEmpty then (readLine? s).map fun p => (String.ofList p.1, p.2)
  else some (String.ofList bare, s.dropWhile isKeyChar)

/-- The tables that a key leads through, and its name in the last of them. -/
structure Key where
  path : List String
  name : String
  deriving DecidableEq, Repr

/-- Reads a key, of at most `fuel` parts, and the white space behind it. -/
def readKeyWithin : Nat → List Char → Option (Key × List Char)
  | 0, _ => none
  | fuel + 1, s =>
    match readKeyPart? s with
    | none => none
    | some (part, r) =>
      match skipBlanks r with
      | '.' :: r =>
        (readKeyWithin fuel (skipBlanks r)).map fun (k, r) => (⟨part :: k.path, k.name⟩, r)
      | r => some (⟨[], part⟩, r)

/-- Reads a key and the white space behind it. -/
def readKey? (s : List Char) : Option (Key × List Char) := readKeyWithin (s.length + 1) s

end LineCensus.Toml
