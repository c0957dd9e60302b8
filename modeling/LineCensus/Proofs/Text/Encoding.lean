import LineCensus.Text.Encoding
import LineCensus.Proofs.Text.Utf8

namespace LineCensus.Text

/-!
# Source files decoded

* `decodes_utf16` — the decoder of UTF-16 takes what has been written and nothing else, in both byte
  orders.
* `Encoding.Announced`, `Encoding.Holds` — the encoding that a file announces, and the text whose
  bytes stand behind the mark.
* `Encoding.announced_detect`, `Encoding.Announced.eq_detect` — every file announces one encoding.
* `Encoding.decodes` — the decoder of every encoding takes what has been written.
* `decodeSource_spec` — which bytes have a text, which text that is, and where all others go wrong.
-/

/-! ### UTF-16 -/

/-- Two bytes make a unit of sixteen bits. -/
theorem unit_lt (order : ByteOrder) (a b : UInt8) : order.unit a b < 0x10000 := by
  have ha := a.toNat_lt
  have hb := b.toNat_lt
  cases order <;> simp only [ByteOrder.unit] <;> omega

/-- The two bytes of a unit make that unit. -/
theorem exists_bytes (order : ByteOrder) {u : Nat} (h : u < 0x10000) :
    ∃ a b, order.bytes u = [a, b] ∧ order.unit a b = u := by
  obtain ⟨a, ha, hlow⟩ := exists_byte (n := u % 256) (by omega)
  obtain ⟨b, hb, hhigh⟩ := exists_byte (n := u / 256) (by omega)
  cases order with
  | little =>
    refine ⟨a, b, by rw [ByteOrder.bytes, ha, hb], ?_⟩
    rw [ByteOrder.unit, hlow, hhigh]
    omega
  | big =>
    refine ⟨b, a, by rw [ByteOrder.bytes, ha, hb], ?_⟩
    rw [ByteOrder.unit, hlow, hhigh]
    omega

/-- A unit is written as the two bytes that make it. -/
theorem bytes_unit (order : ByteOrder) (a b : UInt8) : order.bytes (order.unit a b) = [a, b] := by
  have ha := a.toNat_lt
  have hb := b.toNat_lt
  cases order with
  | little =>
    rw [ByteOrder.bytes, ByteOrder.unit, eq_toUInt8 (show _ = a.toNat by omega),
      eq_toUInt8 (show _ = b.toNat by omega)]
  | big =>
    rw [ByteOrder.bytes, ByteOrder.unit, eq_toUInt8 (show _ = a.toNat by omega),
      eq_toUInt8 (show _ = b.toNat by omega)]

/-- The bytes of one character. -/
def encodeCharUtf16 (order : ByteOrder) (c : Char) : List UInt8 := (unitsOf c).flatMap order.bytes

/-- A text is encoded character by character. -/
theorem encodeUtf16_eq (order : ByteOrder) (s : List Char) :
    encodeUtf16 order s = s.flatMap (encodeCharUtf16 order) := List.flatMap_assoc

/-- The bytes of a character are taken as that character. -/
theorem decodeUtf16From_encodeChar (order : ByteOrder) (offset : Nat) (c : Char)
    (rest : List UInt8) : decodeUtf16From order offset (encodeCharUtf16 order c ++ rest) =
      consDecoded c.toNat
        (decodeUtf16From order (offset + (encodeCharUtf16 order c).length) rest) := by
  by_cases hc : c.toNat < 0x10000
  · obtain ⟨a, b, hbytes, hunit⟩ := exists_bytes order hc
    obtain ⟨hhigh, hlow⟩ := Bool.or_eq_false_iff.1 (not_surrogate c)
    rw [encodeCharUtf16, unitsOf_small hc, List.flatMap_singleton, hbytes]
    show decodeUtf16From order offset (a :: b :: rest) = _
    rw [decodeUtf16From.eq_def]
    simp only [hunit, hhigh, hlow, Bool.false_eq_true, if_false]
    rfl
  · obtain ⟨a, b, hfirst, hhigh⟩ := exists_bytes order (highUnit_lt c)
    obtain ⟨a', b', hsecond, hlow⟩ := exists_bytes order (lowUnit_lt c)
    have hnot : isLowSurrogate (highUnit c) = false := by
      have h := highUnit_bounds c
      simp only [isLowSurrogate, Bool.and_eq_false_iff, decide_eq_false_iff_not]
      omega
    rw [encodeCharUtf16, unitsOf_large hc, List.flatMap_cons, List.flatMap_singleton, hfirst,
      hsecond]
    show decodeUtf16From order offset (a :: b :: a' :: b' :: rest) = _
    rw [decodeUtf16From.eq_def]
    simp only [hhigh, hlow, hnot, isHighSurrogate_highUnit, isLowSurrogate_lowUnit,
      joinSurrogates_units hc, Bool.false_eq_true, if_false, if_true]
    rfl

/-- Bytes that do not begin with a unit that is a character or with a pair of surrogates are refused
    at once. -/
theorem decodeUtf16From_refuse (order : ByteOrder) (offset : Nat) (bytes : List UInt8)
    (hne : bytes ≠ []) : (∃ c rest, bytes = encodeCharUtf16 order c ++ rest) ∨
      ∃ f, decodeUtf16From order offset bytes = .error f ∧ f.start = offset := by
  fun_cases decodeUtf16From order offset bytes with
  | case1 => exact absurd rfl hne
  | case4 a b u hfirst hhigh c d r v hlow =>
    have hunits := unitsOf_joinSurrogates hhigh hlow
    refine .inl ⟨Char.ofNat (joinSurrogates u v), r, ?_⟩
    rw [encodeCharUtf16, hunits, List.flatMap_cons, List.flatMap_singleton, bytes_unit, bytes_unit]
    rfl
  | case7 a b r u hlow hhigh =>
    refine .inl ⟨Char.ofNat u, r, ?_⟩
    rw [encodeCharUtf16, unitsOf_ofNat (unit_lt order a b) hhigh hlow, List.flatMap_singleton,
      bytes_unit]
    rfl
  | case2 | case3 | case5 | case6 => exact .inr ⟨_, rfl, rfl⟩

/-- Every character has a byte. -/
theorem encodeCharUtf16_ne_nil (order : ByteOrder) (c : Char) : encodeCharUtf16 order c ≠ [] := by
  have hbytes (u : Nat) : order.bytes u ≠ [] := by
    cases order <;> exact List.cons_ne_nil _ _
  by_cases hc : c.toNat < 0x10000
  · rw [encodeCharUtf16, unitsOf_small hc, List.flatMap_singleton]
    exact hbytes _
  · rw [encodeCharUtf16, unitsOf_large hc, List.flatMap_cons]
    exact List.append_ne_nil_of_left_ne_nil (hbytes _) _

/-- **UTF-16.**  In either byte order the decoder takes the bytes of every character as that
    character, and refuses what does not begin with the bytes of one. -/
theorem decodes_utf16 (order : ByteOrder) :
    Decodes (encodeCharUtf16 order) (decodeUtf16From order) where
  ne_nil := encodeCharUtf16_ne_nil order
  nil _ := by rw [decodeUtf16From]
  cons := decodeUtf16From_encodeChar order
  refuse := decodeUtf16From_refuse order

/-! ### Marks -/

namespace Encoding

/-- The bytes announce the encoding, and `rest` stands behind its mark.  UTF-8 without a mark is
    what no mark announces. -/
def Announced (e : Encoding) (bytes rest : List UInt8) : Prop :=
  bytes = e.mark ++ rest ∧ (e = .utf8 → ∀ e' : Encoding, e' ≠ .utf8 → ¬e'.mark <+: bytes)

/-- The bytes behind the mark are those of the text. -/
def Holds (e : Encoding) (s : String) (rest : List UInt8) : Prop :=
  match e with
  | .utf16 order => rest = encodeUtf16 order s.toList
  | _ => rest.toByteArray = s.toUTF8

/-- The offset that the first byte behind the mark has in reasons. -/
def firstOffset : Encoding → Nat
  | .utf16 _ => 2
  | _ => 0

/-- Every file announces one encoding. -/
theorem announced_detect (bytes : List UInt8) :
    (detect bytes).1.Announced bytes (detect bytes).2 := by
  unfold detect
  split
  · exact ⟨rfl, fun h => nomatch h⟩
  · exact ⟨rfl, fun h => nomatch h⟩
  · exact ⟨rfl, fun h => nomatch h⟩
  · next hmarked hlittle hbig =>
    refine ⟨rfl, fun _ e hne hmark => ?_⟩
    obtain ⟨rest, rfl⟩ := hmark
    cases e with
    | utf8 => exact hne rfl
    | utf8Marked => exact hmarked rest rfl
    | utf16 order =>
      cases order with
      | little => exact hlittle rest rfl
      | big => exact hbig rest rfl

/-- No file announces two encodings. -/
theorem Announced.eq_detect {e : Encoding} {bytes rest : List UInt8} (h : e.Announced bytes rest) :
    detect bytes = (e, rest) := by
  obtain ⟨rfl, hplain⟩ := h
  cases e with
  | utf8Marked => rfl
  | utf16 order => cases order <;> rfl
  | utf8 =>
    -- The first bytes are no mark.
    have hnot (e : Encoding) (he : e ≠ .utf8) : ¬e.mark <+: rest := hplain rfl e he
    show detect rest = (.utf8, rest)
    unfold detect
    split
    · next r => exact absurd ⟨r, rfl⟩ (hnot .utf8Marked (by decide))
    · next r => exact absurd ⟨r, rfl⟩ (hnot (.utf16 .little) (by decide))
    · next r => exact absurd ⟨r, rfl⟩ (hnot (.utf16 .big) (by decide))
    · rfl

/-! ### Behind the mark -/

/-- The bytes of one character. -/
def encodeChar : Encoding → Char → List UInt8
  | .utf16 order => encodeCharUtf16 order
  | _ => encodeCharUtf8

/-- Decodes bytes that begin at a given offset. -/
def decodeFrom : Encoding → Nat → List UInt8 → Except IllFormed (List Char)
  | .utf16 order => decodeUtf16From order
  | _ => decodeUtf8From

/-- Bytes are decoded from the first offset on. -/
theorem decode_eq (e : Encoding) (rest : List UInt8) :
    e.decode rest = e.decodeFrom e.firstOffset rest := by
  cases e <;> rfl

/-- Each encoding is decoded by its own reader. -/
theorem decodes (e : Encoding) : Decodes e.encodeChar e.decodeFrom := by
  cases e with
  | utf8 => exact decodes_utf8
  | utf8Marked => exact decodes_utf8
  | utf16 order => exact decodes_utf16 order

/-- Bytes are those of a string if they encode its characters. -/
theorem toByteArray_eq_iff {s : String} {rest : List UInt8} :
    rest.toByteArray = s.toUTF8 ↔ rest = encodeUtf8 s.toList := by
  have hbytes := toByteArray_encodeUtf8 s.toList
  rw [String.ofList_toList] at hbytes
  rw [← hbytes, List.toByteArray_inj]

/-- Bytes hold a text if they are the bytes of its characters. -/
theorem holds_iff {e : Encoding} {s : String} {rest : List UInt8} :
    e.Holds s rest ↔ rest = s.toList.flatMap e.encodeChar := by
  cases e with
  | utf8 => exact toByteArray_eq_iff
  | utf8Marked => exact toByteArray_eq_iff
  | utf16 order =>
    rw [Holds, encodeUtf16_eq]
    rfl

/-- They hold one if they encode any characters. -/
theorem exists_holds_iff {e : Encoding} {rest : List UInt8} :
    (∃ s, e.Holds s rest) ↔ ∃ s : List Char, rest = s.flatMap e.encodeChar := by
  constructor
  · rintro ⟨s, hs⟩
    exact ⟨s.toList, holds_iff.1 hs⟩
  · rintro ⟨s, hs⟩
    exact ⟨String.ofList s, holds_iff.2 (by rwa [String.toList_ofList])⟩

end Encoding

/-! ### Source files -/

/-- A file is read in the encoding that it announces. -/
theorem decodeSource_of_detect {bytes rest : List UInt8} {e : Encoding}
    (h : Encoding.detect bytes = (e, rest)) :
    decodeSource bytes =
      ((e.decodeFrom e.firstOffset rest).map String.ofList).mapError (DecodeFault.mk e) := by
  rw [decodeSource, h, ← Encoding.decode_eq]
  dsimp only
  cases e.decode rest with
  | ok s => rfl
  | error flaw => rfl

/-- **Source files.**  A file has a text exactly if, behind the mark that it announces its encoding
    with, it holds the bytes of that text; without a mark it is UTF-8.  Any other file is refused.
    The reason names the byte at which the longest part ends that is a text, counted from behind the
    mark in UTF-8 and from the first byte of the mark in UTF-16. -/
theorem decodeSource_spec (bytes : List UInt8) :
    (∀ s, decodeSource bytes = .ok s ↔
      ∃ (e : Encoding) (rest : List UInt8), e.Announced bytes rest ∧ e.Holds s rest) ∧
    ((∃ s, decodeSource bytes = .ok s) ∨
      ∃ (f : DecodeFault) (rest : List UInt8) (n : Nat), decodeSource bytes = .error f ∧
        f.encoding.Announced bytes rest ∧
        IsGreatest {n | n ≤ rest.length ∧ ∃ s, f.encoding.Holds s (rest.take n)} n ∧
        f.reason = f.flaw.flaw.text ++ " at byte " ++ numeral (f.encoding.firstOffset + n) ++
          " (" ++ f.encoding.name ++ ")") := by
  obtain ⟨e, rest, hdetect⟩ : ∃ e rest, Encoding.detect bytes = (e, rest) := ⟨_, _, rfl⟩
  have hannounced : e.Announced bytes rest := by
    have h := Encoding.announced_detect bytes
    rwa [hdetect] at h
  have hdecode := decodeSource_of_detect hdetect
  constructor
  · intro s
    have hok : decodeSource bytes = .ok s ↔ e.decodeFrom e.firstOffset rest = .ok s.toList := by
      rw [hdecode]
      cases e.decodeFrom e.firstOffset rest with
      | ok t =>
        simp only [Except.map, Except.mapError, Except.ok.injEq, ← String.toList_inj,
          String.toList_ofList]
      | error flaw => simp [Except.map, Except.mapError]
    rw [hok, e.decodes.eq_ok_iff, ← Encoding.holds_iff]
    constructor
    · intro hs
      exact ⟨e, rest, hannounced, hs⟩
    · rintro ⟨e', rest', hannounced', hs⟩
      -- There is but one encoding that the file announces.
      have heq := hannounced'.eq_detect.symm.trans hdetect
      rw [Prod.mk.injEq] at heq
      obtain ⟨rfl, rfl⟩ := heq
      exact hs
  · cases hrest : e.decodeFrom e.firstOffset rest with
    | ok s => exact .inl ⟨String.ofList s, by rw [hdecode, hrest]; rfl⟩
    | error flaw =>
      obtain ⟨n, hstart, hgreatest⟩ := e.decodes.isGreatest hrest
      refine .inr ⟨⟨e, flaw⟩, rest, n, by rw [hdecode, hrest]; rfl, hannounced, ?_, ?_⟩
      · simp only [Encoding.exists_holds_iff]
        exact hgreatest
      · rw [← hstart]
        rfl

end LineCensus.Text
