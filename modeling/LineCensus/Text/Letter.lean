namespace LineCensus.Text

/-!
# Texts with surrogates

A text that was read from a document may hold surrogates that are no part of a pair.  They are no
characters, so such a text is a list of letters.

* `Letter` — a character or a surrogate, with `Letter.code` its code point.
* `Letters` — a text of letters.  Every string is one.
* `Spelled` — the kinds of text: strings and texts of letters.
* `chars?`, `string?` — the characters of a text without surrogates.
-/

/-- A character, or one of the surrogates from U+D800 on. -/
inductive Letter where
  | char (c : Char)
  | surrogate (n : Fin 2048)
  deriving DecidableEq, Repr

instance : Coe Char Letter := ⟨.char⟩

namespace Letter

/-- The code point of a letter. -/
def code : Letter → Nat
  | .char c => c.toNat
  | .surrogate n => 0xD800 + n.val

/-- The letter with a code point. -/
def ofCode (n : Nat) : Letter :=
  if h : 0xD800 ≤ n ∧ n < 0xE000 then .surrogate ⟨n - 0xD800, by omega⟩ else .char (Char.ofNat n)

/-- The first half of a pair. -/
def isHigh : Letter → Bool
  | .char _ => false
  | .surrogate n => n.val < 0x400

/-- The second half of a pair. -/
def isLow : Letter → Bool
  | .char _ => false
  | .surrogate n => 0x400 ≤ n.val

/-- Whether a letter is a character with a property. -/
def isChar (p : Char → Bool) : Letter → Bool
  | .char c => p c
  | .surrogate _ => false

end Letter

/-- A text that may have surrogates. -/
abbrev Letters := List Letter

/-- Characters as letters. -/
def letters (s : List Char) : Letters := s.map .char

/-- A string as letters. -/
def ofString (s : String) : Letters := letters s.toList

instance : Coe String Letters := ⟨ofString⟩

theorem letters_injective {s t : List Char} (h : letters s = letters t) : s = t :=
  List.map_inj_right (fun _ _ h => Letter.char.inj h) |>.mp h

/-- A kind of text.  Strings are texts of every kind. -/
class Spelled (τ : Type) where
  /-- The letters of a text. -/
  spelling : τ → Letters
  /-- A string as a text of this kind. -/
  ofString : String → τ
  /-- Texts with the same letters are the same. -/
  spelling_injective : ∀ {s t : τ}, spelling s = spelling t → s = t
  /-- A string keeps its letters. -/
  spelling_ofString : ∀ s : String, spelling (ofString s) = Text.ofString s

instance : Spelled String where
  spelling := Text.ofString
  ofString s := s
  spelling_injective h := String.toList_injective (letters_injective h)
  spelling_ofString _ := rfl

instance : Spelled Letters where
  spelling s := s
  ofString := Text.ofString
  spelling_injective h := h
  spelling_ofString _ := rfl

/-- The characters of a text without surrogates. -/
def chars? : Letters → Option (List Char)
  | [] => some []
  | .char c :: s => (chars? s).map (c :: ·)
  | .surrogate _ :: _ => none

/-- The string that a text without surrogates is. -/
def string? {τ : Type} [Spelled τ] (s : τ) : Option String :=
  (chars? (Spelled.spelling s)).map String.ofList

/-- A first half of a pair stands right before a second one. -/
def hasSplitPair : Letters → Bool
  | a :: b :: s => a.isHigh && b.isLow || hasSplitPair (b :: s)
  | _ => false

/-- The text with three replacement characters for each surrogate, one for every byte of it. -/
def replaceSurrogates (s : Letters) : Letters :=
  s.flatMap fun
    | .char c => [.char c]
    | .surrogate _ => List.replicate 3 (.char '\uFFFD')

/-- Texts in a row with `sep` between neighbours. -/
def joinLetters (sep : Letters) : List Letters → Letters
  | [] => []
  | [s] => s
  | s :: ss => s ++ sep ++ joinLetters sep ss

end LineCensus.Text
