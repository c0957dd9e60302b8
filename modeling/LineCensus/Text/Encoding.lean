import LineCensus.Text.Utf16
import LineCensus.Text.Digit

namespace LineCensus.Text

/-!
# Encodings of source files

* `Encoding` — UTF-8 without and with a byte order mark, and UTF-16 in its two byte orders.
* `Encoding.detect` — the encoding that the first bytes announce, and the bytes of the text.
* `decodeSource` — the text of a source file, or the reason why it has none.
-/

/-- How a source file is encoded. -/
inductive Encoding where
  | utf8
  | utf8Marked
  | utf16 (order : ByteOrder)
  deriving DecidableEq, Repr

/-- The name of an encoding in messages. -/
def Encoding.name : Encoding → String
  | .utf8 => "utf-8"
  | .utf8Marked => "utf-8-sig"
  | .utf16 _ => "utf-16"

/-- The byte order mark that announces the encoding. -/
def Encoding.mark : Encoding → List UInt8
  | .utf8 => []
  | .utf8Marked => [0xEF, 0xBB, 0xBF]
  | .utf16 .little => [0xFF, 0xFE]
  | .utf16 .big => [0xFE, 0xFF]

/-- The encoding announced by the first bytes, and the bytes after the mark. -/
def Encoding.detect : List UInt8 → Encoding × List UInt8
  | 0xEF :: 0xBB :: 0xBF :: r => (.utf8Marked, r)
  | 0xFF :: 0xFE :: r => (.utf16 .little, r)
  | 0xFE :: 0xFF :: r => (.utf16 .big, r)
  | r => (.utf8, r)

/-- Decodes the bytes after the mark.  Offsets in UTF-8 are counted after the mark, offsets in
    UTF-16 from the first byte of the mark. -/
def Encoding.decode : Encoding → List UInt8 → Except IllFormed (List Char)
  | .utf8, bytes => decodeUtf8 bytes
  | .utf8Marked, bytes => decodeUtf8 bytes
  | .utf16 order, bytes => decodeUtf16From order 2 bytes

/-- A text as a file in the given encoding. -/
def Encoding.encode (e : Encoding) (s : List Char) : List UInt8 :=
  e.mark ++ match e with
    | .utf16 order => encodeUtf16 order s
    | _ => encodeUtf8 s

/-- Why a source file cannot be decoded. -/
structure DecodeFault where
  encoding : Encoding
  flaw : IllFormed
  deriving DecidableEq, Repr

/-- The reason in words: what is wrong, at which byte, in which encoding. -/
def DecodeFault.reason (f : DecodeFault) : String :=
  f.flaw.flaw.text ++ " at byte " ++ numeral f.flaw.start ++ " (" ++ f.encoding.name ++ ")"

/-- The text of a source file. -/
def decodeSource (bytes : List UInt8) : Except DecodeFault String :=
  let (encoding, rest) := Encoding.detect bytes
  match encoding.decode rest with
  | .ok s => .ok (String.ofList s)
  | .error flaw => .error ⟨encoding, flaw⟩

end LineCensus.Text
