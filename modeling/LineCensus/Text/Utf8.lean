import LineCensus.Text.Letter

namespace LineCensus.Text

/-!
# UTF-8

* `Flaw`, `IllFormed` — why and where a sequence of bytes is no encoded text.
* `encodeUtf8` — the bytes of a text, and `encode?` of one that may have surrogates.
* `decodeUtf8` — the text of a sequence of bytes; it refuses at the first sequence that is not well
  formed, and names the bytes that are at fault.
-/

/-- Why bytes are not an encoded text. -/
inductive Flaw where
  | invalidStart
  | invalidContinuation
  | unexpectedEnd
  | truncatedData
  | illegalEncoding
  | illegalSurrogate
  deriving DecidableEq, Repr

/-- The words for a flaw. -/
def Flaw.text : Flaw → String
  | .invalidStart => "invalid start byte"
  | .invalidContinuation => "invalid continuation byte"
  | .unexpectedEnd => "unexpected end of data"
  | .truncatedData => "truncated data"
  | .illegalEncoding => "illegal encoding"
  | .illegalSurrogate => "illegal UTF-16 surrogate"

/-- A flaw in the bytes from offset `start` to just before `stop`. -/
structure IllFormed where
  flaw : Flaw
  start : Nat
  stop : Nat
  deriving DecidableEq, Repr

/-! ### Encoding -/

/-- The bytes of one character. -/
def encodeCharUtf8 (c : Char) : List UInt8 :=
  let n := c.toNat
  if n < 0x80 then [n.toUInt8]
  else if n < 0x800 then [(0xC0 + n / 64).toUInt8, (0x80 + n % 64).toUInt8]
  else if n < 0x10000 then
    [(0xE0 + n / 4096).toUInt8, (0x80 + n / 64 % 64).toUInt8, (0x80 + n % 64).toUInt8]
  else
    [(0xF0 + n / 262144).toUInt8, (0x80 + n / 4096 % 64).toUInt8, (0x80 + n / 64 % 64).toUInt8,
      (0x80 + n % 64).toUInt8]

/-- The bytes of a text. -/
def encodeUtf8 (s : List Char) : List UInt8 := s.flatMap encodeCharUtf8

/-- The bytes of a text without surrogates. -/
def encode? (s : Letters) : Option (List UInt8) := (chars? s).map encodeUtf8

/-! ### Decoding -/

/-- A continuation byte. -/
def isContinuation (b : UInt8) : Bool := 0x80 ≤ b.toNat && b.toNat ≤ 0xBF

/-- A continuation byte that may come first after the lead byte `n`: overlong forms, surrogates
    and code points beyond the last are excluded here. -/
def mayFollow (n : Nat) (b : UInt8) : Bool :=
  isContinuation b && (n != 0xE0 || 0xA0 ≤ b.toNat) && (n != 0xED || b.toNat ≤ 0x9F) &&
    (n != 0xF0 || 0x90 ≤ b.toNat) && (n != 0xF4 || b.toNat ≤ 0x8F)

/-- `c` in front of a decoded rest. -/
def consDecoded (c : Nat) : Except IllFormed (List Char) → Except IllFormed (List Char)
  | .ok s => .ok (Char.ofNat c :: s)
  | .error e => .error e

/-- Decodes bytes that begin at `offset`. -/
def decodeUtf8From (offset : Nat) : List UInt8 → Except IllFormed (List Char)
  | [] => .ok []
  | a :: r =>
    let n := a.toNat
    if n < 0x80 then consDecoded n (decodeUtf8From (offset + 1) r)
    -- The lead bytes 0xC0 and 0xC1 would begin overlong forms only.
    else if n < 0xC2 || 0xF4 < n then .error ⟨.invalidStart, offset, offset + 1⟩
    else match r with
      | [] => .error ⟨.unexpectedEnd, offset, offset + 1⟩
      | b :: r =>
        let u := b.toNat - 0x80
        if !mayFollow n b then .error ⟨.invalidContinuation, offset, offset + 1⟩
        else if n < 0xE0 then consDecoded ((n - 0xC0) * 64 + u) (decodeUtf8From (offset + 2) r)
        else match r with
          | [] => .error ⟨.unexpectedEnd, offset, offset + 2⟩
          | c :: r =>
            let v := u * 64 + (c.toNat - 0x80)
            if !isContinuation c then .error ⟨.invalidContinuation, offset, offset + 2⟩
            else if n < 0xF0 then
              consDecoded ((n - 0xE0) * 4096 + v) (decodeUtf8From (offset + 3) r)
            else match r with
              | [] => .error ⟨.unexpectedEnd, offset, offset + 3⟩
              | d :: r =>
                let w := v * 64 + (d.toNat - 0x80)
                if !isContinuation d then .error ⟨.invalidContinuation, offset, offset + 3⟩
                else consDecoded ((n - 0xF0) * 262144 + w) (decodeUtf8From (offset + 4) r)

/-- The text of a sequence of bytes. -/
def decodeUtf8 (bytes : List UInt8) : Except IllFormed (List Char) := decodeUtf8From 0 bytes

end LineCensus.Text
