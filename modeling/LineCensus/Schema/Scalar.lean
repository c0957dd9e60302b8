import LineCensus.Excess
import LineCensus.Schema.Issue
import LineCensus.Value
import LineCensus.Text.Blank

namespace LineCensus.Schema

open Text

/-!
# Reading single values

* `text`, `nonEmptyText`, `version` — texts.
* `integer`, `count` — whole numbers, also when they are written as a text, as a truth value or as a
  number without a fraction.
* `truth` — truth values, also when they are written as a number or as a word.
* `moment` — dates with times.
* `field`, `fieldOr` — a key of a table, required or with a default.
-/

variable {τ : Type}

/-- A text, with surrogates or without. -/
def text (v : Value τ) : Checked τ :=
  match v.text? with
  | some s => .ok s
  | none => refuse .notText

/-! ### Texts without surrogates -/

section

variable [Spelled τ]

/-- A text without surrogates. -/
def plainText (v : Value τ) : Checked String :=
  match v with
  | .text s =>
    match string? s with
    | some s => .ok s
    | none => refuse .illFormedText
  | _ => refuse .notText

/-- A text of at least one character. -/
def nonEmptyText (v : Value τ) : Checked { s : String // s ≠ "" } :=
  match plainText v with
  | .error e => .error e
  | .ok s => if h : s = "" then refuse .emptyText else .ok ⟨s, h⟩

/-- Two numbers with a dot between them. -/
def isVersion (s : List Char) : Bool :=
  let major := s.takeWhile isDecimalDigit
  match s.dropWhile isDecimalDigit with
  | '.' :: minor => !major.isEmpty && !minor.isEmpty && minor.all isDecimalDigit
  | _ => false

/-- The number of a version of the format. -/
def version (v : Value τ) : Checked String :=
  match plainText v with
  | .error e => .error e
  | .ok s => if isVersion s.toList then .ok s else refuse .notVersion

/-! ### Whole numbers -/

/-- A number in plain form: a minus sign if it is negative, and digits of which the first is a zero
    only if it is the only one.  The sign counts among the digits that are too many. -/
def plainInteger (s : List Char) : Except Complaint Int :=
  let (unit, digits) : Int × List Char := match s with
    | '-' :: r => (-1, r)
    | r => (1, r)
  match digits with
  | ['0'] => .ok 0
  | '0' :: _ => .error .notIntegerText
  | _ =>
    let front := digits.takeWhile isDigit
    if maxDigits < s.length - digits.length + front.length then .error .tooLarge
    else if front.isEmpty || front.length < digits.length then .error .notIntegerText
    else .ok (unit * (readDigits front : Nat))

/-- A text without a plus sign at its front, unless a minus sign follows it. -/
def dropPlus (s : List Char) : List Char :=
  match s with
  | '+' :: '-' :: _ => s
  | '+' :: r => r
  | _ => s

/-- A number without the zeros in front of it, or nothing if it does not begin like one.  Among
    those zeros underscores may stand anywhere, and a minus sign behind them counts. -/
def dropLeadingZeros? (s : List Char) : Option (List Char) :=
  match s with
  | [] => none
  | c :: _ =>
    if c = '0' then
      match s.dropWhile fun c => c == '0' || c == '_' with
      -- Of zeros alone the last character stays.
      | [] => some (s.drop (s.length - 1))
      | '.' :: r => some ((s.takeWhile (· != '.')).getLast?.toList ++ '.' :: r)
      | d :: r => if isDigit d || d = '-' then some (d :: r) else none
    else if isDigit c || c = '-' then some s
    else none

/-- A text without a dot and zeros behind it. -/
def dropZeroFraction (s : List Char) : List Char :=
  match s.dropWhile (· != '.') with
  | '.' :: zeros =>
    if !zeros.isEmpty && zeros.all (· == '0') then s.takeWhile (· != '.') else s
  | _ => s

/-- A text without its underscores, which have to stand one by one between other characters. -/
def dropUnderscores? (s : List Char) : Option (List Char) :=
  let pieces := splitAtChar '_' s
  if pieces.all fun p => !p.isEmpty then some pieces.flatten else none

/-- The plain form of a number that is written with white space around it, with a sign, with zeros
    in front, with underscores or with a fraction of zeros. -/
def plainForm? (s : List Char) : Option (List Char) :=
  (dropLeadingZeros? (dropPlus (trimBy isWhiteSpace s))).bind fun r =>
    dropUnderscores? (dropZeroFraction r)

/-- The whole number that a text writes. -/
def integerText (s : String) : Except Complaint Int :=
  match plainInteger s.toList with
  | .error .notIntegerText =>
    match plainForm? s.toList with
    | some r => plainInteger r
    | none => .error .notIntegerText
  | r => r

/-- The whole number that a floating-point number is, if its size fits 64 bits. -/
def integerFloat (x : Float) : Checked Int :=
  match Decimal.Dyadic.ofFloat? x with
  | none => refuse .notFinite
  | some d =>
    let (num, den) := d.ratio
    if num % den ≠ 0 then refuse .fraction
    else if Decimal.wordBound ≤ num / den then refuse .tooLarge
    else .ok (if d.negative then -((num / den : Nat) : Int) else (num / den : Nat))

/-- A whole number. -/
def integer : Value τ → Checked Int
  | .int n => .ok n
  | .bool b => .ok (if b then 1 else 0)
  | .float x => integerFloat x
  | .text s =>
    match (string? s).map integerText with
    | some (.ok n) => .ok n
    | some (.error c) => refuse c
    | none => refuse .illFormedText
  | _ => refuse .notInteger

/-- A whole number of at least `bound`. -/
def integerFrom (bound : Nat) (v : Value τ) : Checked Nat :=
  match integer v with
  | .error e => .error e
  | .ok n => if n < bound then refuse (.below bound) else .ok n.toNat

/-- A number of things. -/
def count (v : Value τ) : Checked Nat := integerFrom 0 v

/-! ### Truth values -/

/-- Words for true and for false. -/
def truthWords : List (String × Bool) :=
  [("0", false), ("off", false), ("f", false), ("false", false), ("n", false), ("no", false),
   ("1", true), ("on", true), ("t", true), ("true", true), ("y", true), ("yes", true)]

/-- A letter of the alphabet in lowercase. -/
def asciiLower (c : Char) : Char :=
  if 65 ≤ c.toNat && c.toNat ≤ 90 then Char.ofNat (c.toNat + 32) else c

/-- A truth value. -/
def truth : Value τ → Checked Bool
  | .bool b => .ok b
  | .int n =>
    if n = 0 then .ok false
    else if n = 1 then .ok true
    else if Decimal.isWord n then refuse .notBoolText
    else refuse .notBool
  | .float x =>
    match integerFloat x with
    | .ok n => if n = 0 then .ok false else if n = 1 then .ok true else refuse .notBoolText
    | .error _ => refuse .notBool
  | .text s =>
    match string? s with
    | some s =>
      match Table.get? truthWords (String.ofList (s.toList.map asciiLower)) with
      | some b => .ok b
      | none => refuse .notBoolText
    | none => refuse .illFormedText
  | _ => refuse .notBool

/-! ### Moments -/

/-- The moment that was read, or a complaint about what is wrong with it. -/
def momentOf : Except Moment.Problem Moment → Checked Moment
  | .ok m => .ok m
  | .error p => refuse (.notMoment p)

/-- A date with a time of day. -/
def moment : Value τ → Checked Moment
  | .text s =>
    match string? s with
    | some s => momentOf (Moment.ofText s.toList)
    | none => refuse .illFormedText
  | .int n =>
    if Decimal.isWord n then momentOf (Moment.ofSeconds n 0)
    else if (Decimal.ofRatio n.natAbs 1).isFinite then
      momentOf (.error (if n < 0 then .tooEarly else .tooLate))
    else momentOf (.error .wrongType)
  | .float x => momentOf (Moment.ofFloat x)
  | _ => momentOf (.error .wrongType)

end

/-! ### Fields -/

section

variable [Spelled τ] [DecidableEq τ]

/-- The value of the first of the keys that is in the table, with that key. -/
def firstOf? (t : Table (Value τ) τ) : List String → Option (String × Value τ)
  | [] => none
  | k :: ks =>
    match t.get? (Spelled.ofString k) with
    | some v => some (k, v)
    | none => firstOf? t ks

/-- A required field.  Issues are reported under the key that is used, or under the first one if
    none is there. -/
def field {α : Type} (t : Table (Value τ) τ) (keys : List String) (read : Value τ → Checked α) :
    Checked α :=
  match firstOf? t keys with
  | some (k, v) => within (.key k) (read v)
  | none => within (.key (keys.head?.getD "")) (refuse .missing)

/-- A field with a default.  Issues are reported under the key that is used. -/
def fieldOr {α : Type} (t : Table (Value τ) τ) (keys : List String) (default : α)
    (read : Value τ → Checked α) : Checked α :=
  match firstOf? t keys with
  | some (k, v) => within (.key k) (read v)
  | none => .ok default

end

/-- A list of values that are read in one way. -/
def list {α : Type} (read : Value τ → Checked α) : Value τ → Checked (List α)
  | .list items => each read items
  | _ => refuse .notList

/-- A value or nothing. -/
def optional {α : Type} (read : Value τ → Checked α) : Value τ → Checked (Option α)
  | .null => .ok none
  | v => (read v).map some

/-- A table read as a record with the given name. -/
def record {α : Type} (name : String) (read : Table (Value τ) τ → Checked α) : Value τ → Checked α
  | .table t => read t
  | _ => refuse (.notRecord name)

/-- An issue for every key that is not among the known ones. -/
def onlyKeys (t : Table Value) (known : List String) : Checked Unit :=
  match (t.filter fun e => !known.contains e.1).map fun e => Issue.mk [.key e.1] .unknownKey with
  | [] => .ok ()
  | issues => .error issues

end LineCensus.Schema
