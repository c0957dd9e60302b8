import LineCensus.Text.Utf8

namespace LineCensus.Text

/-!
# UTF-16

* `ByteOrder` — which of the two bytes of a unit comes first.
* `encodeUtf16` — the bytes of a text.
* `decodeUtf16From` — the text of a sequence of bytes that begins at a given offset.
-/

/-- Which byte of a unit comes first. -/
inductive ByteOrder where
  | little
  | big
  deriving DecidableEq, Repr

/-- The unit made of two bytes in their order of appearance. -/
def ByteOrder.unit (order : ByteOrder) (a b : UInt8) : Nat :=
  match order with
  | .little => b.toNat * 256 + a.toNat
  | .big => a.toNat * 256 + b.toNat

/-- The two bytes of a unit in their order of appearance. -/
def ByteOrder.bytes (order : ByteOrder) (u : Nat) : List UInt8 :=
  match order with
  | .little => [(u % 256).toUInt8, (u / 256).toUInt8]
  | .big => [(u / 256).toUInt8, (u % 256).toUInt8]

/-- The units of one character: itself, or a pair of surrogates. -/
def unitsOf (c : Char) : List Nat :=
  let n := c.toNat
  if n < 0x10000 then [n]
  else [0xD800 + (n - 0x10000) / 0x400, 0xDC00 + (n - 0x10000) % 0x400]

/-- The bytes of a text. -/
def encodeUtf16 (order : ByteOrder) (s : List Char) : List UInt8 :=
  (s.flatMap unitsOf).flatMap order.bytes

/-- A unit that is the first of a pair. -/
def isHighSurrogate (u : Nat) : Bool := 0xD800 ≤ u && u < 0xDC00

/-- A unit that is the second of a pair. -/
def isLowSurrogate (u : Nat) : Bool := 0xDC00 ≤ u && u < 0xE000

/-- The code point of a pair of surrogates. -/
def joinSurrogates (u v : Nat) : Nat := 0x10000 + (u - 0xD800) * 0x400 + (v - 0xDC00)

/-- Decodes bytes that begin at `offset`. -/
def decodeUtf16From (order : ByteOrder) (offset : Nat) :
    List UInt8 → Except IllFormed (List Char)
  | [] => .ok []
  | [_] => .error ⟨.truncatedData, offset, offset + 1⟩
  | a :: b :: r =>
    let u := order.unit a b
    if isLowSurrogate u then .error ⟨.illegalEncoding, offset, offset + 2⟩
    else if isHighSurrogate u then
      match r with
      | c :: d :: r =>
        let v := order.unit c d
        if isLowSurrogate v then
          consDecoded (joinSurrogates u v) (decodeUtf16From order (offset + 4) r)
        else .error ⟨.illegalSurrogate, offset, offset + 2⟩
      | _ => .error ⟨.unexpectedEnd, offset, offset + 2 + r.length⟩
    else consDecoded u (decodeUtf16From order (offset + 2) r)

end LineCensus.Text
