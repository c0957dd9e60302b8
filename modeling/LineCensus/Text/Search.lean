namespace LineCensus.Text

/-!
# Finding and cutting

* `startsWith`, `dropStart?` — whether a text begins with a token, and what follows it.
* `indexOf?` — the offset of the first occurrence of a token.
* `splitAtChar` — the pieces between occurrences of a character.
* `joinWith` — the pieces with a separator between them.
-/

/-- What follows `token` at the front of the text. -/
def dropStart? : List Char → List Char → Option (List Char)
  | [], s => some s
  | _ :: _, [] => none
  | a :: token, b :: s => if a = b then dropStart? token s else none

/-- The text begins with `token`. -/
def startsWith (token s : List Char) : Bool := (dropStart? token s).isSome

/-- The offset of the first place where `token` occurs. -/
def indexOf? (token : List Char) : List Char → Option Nat
  | [] => if startsWith token [] then some 0 else none
  | c :: s => if startsWith token (c :: s) then some 0 else (indexOf? token s).map (· + 1)

/-- The pieces of the text between the characters `sep`; one more than there are of those. -/
def splitAtChar (sep : Char) : List Char → List (List Char)
  | [] => [[]]
  | c :: s =>
    if c = sep then [] :: splitAtChar sep s
    else match splitAtChar sep s with
      | [] => [[c]]
      | piece :: pieces => (c :: piece) :: pieces

/-- The pieces in a row with `sep` between neighbours. -/
def joinWith (sep : String) (pieces : List String) : String := sep.intercalate pieces

/-- Carriage returns, alone or before a line feed, become line feeds. -/
def unifyNewlines : List Char → List Char
  | [] => []
  | '\r' :: '\n' :: s => '\n' :: unifyNewlines s
  | '\r' :: s => '\n' :: unifyNewlines s
  | c :: s => c :: unifyNewlines s

end LineCensus.Text
