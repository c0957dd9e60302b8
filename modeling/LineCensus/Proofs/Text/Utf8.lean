import LineCensus.Proofs.Text.Codes
import LineCensus.Proofs.Text.Utf16

namespace LineCensus.Text

/-!
# UTF-8 decoded

* `decodeUtf8From_one` to `decodeUtf8From_four` — what the decoder makes of a sequence of bytes, by
  the length of the sequence.
* `encodeCharUtf8_one` to `encodeCharUtf8_four` — and that such a sequence is what its character is
  written as.
* `decodes_utf8` — so the decoder takes what has been written and nothing else.
* `toByteArray_encodeUtf8` — the bytes of a text are those of the string in memory.
-/

variable {a b c d : UInt8}

/-- A byte is the byte of its number. -/
theorem eq_toUInt8 {n : Nat} (h : n = a.toNat) : n.toUInt8 = a := by
  subst h
  exact UInt8.ofNat_toNat

/-- Every small number is that of a byte. -/
theorem exists_byte {n : Nat} (h : n < 256) : ∃ a : UInt8, n.toUInt8 = a ∧ a.toNat = n :=
  ⟨_, rfl, Nat.mod_eq_of_lt h⟩

/-- The continuation bytes are those from 80 to BF. -/
theorem isContinuation_iff : isContinuation b = true ↔ 0x80 ≤ b.toNat ∧ b.toNat ≤ 0xBF := by
  simp only [isContinuation, Bool.and_eq_true, decide_eq_true_eq]

/-- After four of the lead bytes some of them may not come first. -/
theorem mayFollow_iff {n : Nat} : mayFollow n b = true ↔
    (0x80 ≤ b.toNat ∧ b.toNat ≤ 0xBF) ∧ (n = 0xE0 → 0xA0 ≤ b.toNat) ∧
      (n = 0xED → b.toNat ≤ 0x9F) ∧ (n = 0xF0 → 0x90 ≤ b.toNat) ∧ (n = 0xF4 → b.toNat ≤ 0x8F) := by
  simp only [mayFollow, Bool.and_eq_true, Bool.or_eq_true, bne_iff_ne, isContinuation_iff,
    decide_eq_true_eq]
  omega

/-- The bytes that begin a sequence of two bytes or more. -/
theorem isLead_iff {n : Nat} :
    (decide (n < 0xC2) || decide (0xF4 < n)) = false ↔ 0xC2 ≤ n ∧ n ≤ 0xF4 := by
  simp only [Bool.or_eq_false_iff, decide_eq_false_iff_not, Nat.not_lt]

/-! ### Sequences -/

/-- The code point of two bytes. -/
def point₂ (a b : UInt8) : Nat := (a.toNat - 0xC0) * 64 + (b.toNat - 0x80)

/-- The code point of three bytes. -/
def point₃ (a b c : UInt8) : Nat :=
  (a.toNat - 0xE0) * 4096 + ((b.toNat - 0x80) * 64 + (c.toNat - 0x80))

/-- The code point of four bytes. -/
def point₄ (a b c d : UInt8) : Nat :=
  (a.toNat - 0xF0) * 262144 + (((b.toNat - 0x80) * 64 + (c.toNat - 0x80)) * 64 + (d.toNat - 0x80))

section Decode

variable (offset : Nat) (rest : List UInt8)

/-- A byte below 80 is decoded by itself. -/
theorem decodeUtf8From_one (ha : a.toNat < 0x80) : decodeUtf8From offset (a :: rest) =
    consDecoded a.toNat (decodeUtf8From (offset + 1) rest) := by
  rw [decodeUtf8From.eq_def]
  simp only [ha, if_true]

/-- A lead byte up to DF is decoded with one continuation byte. -/
theorem decodeUtf8From_two (h₁ : 0xC2 ≤ a.toNat) (h₂ : a.toNat < 0xE0)
    (hb : mayFollow a.toNat b = true) : decodeUtf8From offset (a :: b :: rest) =
      consDecoded (point₂ a b) (decodeUtf8From (offset + 2) rest) := by
  have hone : ¬a.toNat < 0x80 := by omega
  have hlead := isLead_iff.2 ⟨h₁, show a.toNat ≤ 0xF4 by omega⟩
  rw [decodeUtf8From.eq_def]
  simp only [hone, hlead, h₂, hb, Bool.not_true, Bool.false_eq_true, if_false, if_true]
  rfl

/-- One up to EF is decoded with two. -/
theorem decodeUtf8From_three (h₁ : 0xE0 ≤ a.toNat) (h₂ : a.toNat < 0xF0)
    (hb : mayFollow a.toNat b = true) (hc : isContinuation c = true) :
    decodeUtf8From offset (a :: b :: c :: rest) =
      consDecoded (point₃ a b c) (decodeUtf8From (offset + 3) rest) := by
  have hone : ¬a.toNat < 0x80 := by omega
  have hlead := isLead_iff.2 ⟨show 0xC2 ≤ a.toNat by omega, show a.toNat ≤ 0xF4 by omega⟩
  have htwo : ¬a.toNat < 0xE0 := by omega
  rw [decodeUtf8From.eq_def]
  simp only [hone, hlead, htwo, h₂, hb, hc, Bool.not_true, Bool.false_eq_true, if_false, if_true]
  rfl

/-- One up to F4 is decoded with three. -/
theorem decodeUtf8From_four (h₁ : 0xF0 ≤ a.toNat) (h₂ : a.toNat ≤ 0xF4)
    (hb : mayFollow a.toNat b = true) (hc : isContinuation c = true)
    (hd : isContinuation d = true) : decodeUtf8From offset (a :: b :: c :: d :: rest) =
      consDecoded (point₄ a b c d) (decodeUtf8From (offset + 4) rest) := by
  have hone : ¬a.toNat < 0x80 := by omega
  have hlead := isLead_iff.2 ⟨show 0xC2 ≤ a.toNat by omega, h₂⟩
  have htwo : ¬a.toNat < 0xE0 := by omega
  have hthree : ¬a.toNat < 0xF0 := by omega
  rw [decodeUtf8From.eq_def]
  simp only [hone, hlead, htwo, hthree, hb, hc, hd, Bool.not_true, Bool.false_eq_true, if_false]
  rfl

end Decode

/-- What one byte is decoded to is encoded in it. -/
theorem encodeCharUtf8_one (ha : a.toNat < 0x80) : encodeCharUtf8 (Char.ofNat a.toNat) = [a] := by
  rw [encodeCharUtf8, toNat_ofNat_of_valid (by omega)]
  simp only [ha, if_true, eq_toUInt8 rfl]

/-- So it is with two bytes. -/
theorem encodeCharUtf8_two (h₁ : 0xC2 ≤ a.toNat) (h₂ : a.toNat < 0xE0)
    (hb : mayFollow a.toNat b = true) : encodeCharUtf8 (Char.ofNat (point₂ a b)) = [a, b] := by
  obtain ⟨hb, -⟩ := mayFollow_iff.1 hb
  have hpoint : 0x80 ≤ point₂ a b ∧ point₂ a b < 0x800 := by
    unfold point₂
    omega
  have ha : 0xC0 + point₂ a b / 64 = a.toNat := by
    unfold point₂
    omega
  have hlast : 0x80 + point₂ a b % 64 = b.toNat := by
    unfold point₂
    omega
  rw [encodeCharUtf8, toNat_ofNat_of_valid (by omega)]
  simp only [Nat.not_lt.2 hpoint.1, hpoint.2, if_false, if_true, eq_toUInt8 ha, eq_toUInt8 hlast]

/-- So it is with three. -/
theorem encodeCharUtf8_three (h₁ : 0xE0 ≤ a.toNat) (h₂ : a.toNat < 0xF0)
    (hb : mayFollow a.toNat b = true) (hc : isContinuation c = true) :
    encodeCharUtf8 (Char.ofNat (point₃ a b c)) = [a, b, c] := by
  -- What may follow the lead byte leaves out overlong forms and surrogates.
  obtain ⟨hb, hoverlong, hsurrogate, -⟩ := mayFollow_iff.1 hb
  rw [isContinuation_iff] at hc
  have hpoint : 0x800 ≤ point₃ a b c ∧ point₃ a b c < 0x10000 := by
    unfold point₃
    omega
  have hvalid : point₃ a b c < 0xD800 ∨ 0xE000 ≤ point₃ a b c ∧ point₃ a b c < 0x110000 := by
    unfold point₃
    omega
  have ha : 0xE0 + point₃ a b c / 4096 = a.toNat := by
    unfold point₃
    omega
  have hmiddle : 0x80 + point₃ a b c / 64 % 64 = b.toNat := by
    unfold point₃
    omega
  have hlast : 0x80 + point₃ a b c % 64 = c.toNat := by
    unfold point₃
    omega
  have hone : ¬point₃ a b c < 0x80 := by omega
  rw [encodeCharUtf8, toNat_ofNat_of_valid hvalid]
  simp only [hone, Nat.not_lt.2 hpoint.1, hpoint.2, if_false, if_true, eq_toUInt8 ha,
    eq_toUInt8 hmiddle, eq_toUInt8 hlast]

/-- So it is with four. -/
theorem encodeCharUtf8_four (h₁ : 0xF0 ≤ a.toNat) (h₂ : a.toNat ≤ 0xF4)
    (hb : mayFollow a.toNat b = true) (hc : isContinuation c = true)
    (hd : isContinuation d = true) :
    encodeCharUtf8 (Char.ofNat (point₄ a b c d)) = [a, b, c, d] := by
  -- What may follow the lead byte leaves out overlong forms and what is beyond the last character.
  obtain ⟨hb, -, -, hoverlong, hbeyond⟩ := mayFollow_iff.1 hb
  rw [isContinuation_iff] at hc hd
  have hpoint : 0x10000 ≤ point₄ a b c d ∧ point₄ a b c d < 0x110000 := by
    unfold point₄
    omega
  have ha : 0xF0 + point₄ a b c d / 262144 = a.toNat := by
    unfold point₄
    omega
  have hsecond : 0x80 + point₄ a b c d / 4096 % 64 = b.toNat := by
    unfold point₄
    omega
  have hthird : 0x80 + point₄ a b c d / 64 % 64 = c.toNat := by
    unfold point₄
    omega
  have hlast : 0x80 + point₄ a b c d % 64 = d.toNat := by
    unfold point₄
    omega
  have hone : ¬point₄ a b c d < 0x80 := by omega
  have htwo : ¬point₄ a b c d < 0x800 := by omega
  rw [encodeCharUtf8, toNat_ofNat_of_valid (by omega)]
  simp only [hone, htwo, Nat.not_lt.2 hpoint.1, if_false, eq_toUInt8 ha, eq_toUInt8 hsecond,
    eq_toUInt8 hthird, eq_toUInt8 hlast]

/-! ### The decoder -/

/-- The bytes of a character are one of the sequences that the decoder takes. -/
theorem decodeUtf8From_encodeChar (offset : Nat) (c : Char) (rest : List UInt8) :
    decodeUtf8From offset (encodeCharUtf8 c ++ rest) =
      consDecoded c.toNat (decodeUtf8From (offset + (encodeCharUtf8 c).length) rest) := by
  have hc := toNat_bounds c
  unfold encodeCharUtf8
  generalize c.toNat = n at hc ⊢
  dsimp only
  -- One case a length: the bytes are there, they are allowed, and they make up the number again.
  split
  case isTrue hone =>
    obtain ⟨a, ha, hn⟩ := exists_byte (n := n) (by omega)
    have hdecode := decodeUtf8From_one offset rest (a := a) (by omega)
    rwa [ha, ← hn]
  split
  case isTrue hone htwo =>
    obtain ⟨a, ha, hfirst⟩ := exists_byte (n := 0xC0 + n / 64) (by omega)
    obtain ⟨b, hb, hlast⟩ := exists_byte (n := 0x80 + n % 64) (by omega)
    have hpoint : point₂ a b = n := by
      unfold point₂
      omega
    rw [ha, hb, ← hpoint]
    exact decodeUtf8From_two offset rest (by omega) (by omega) (mayFollow_iff.2 (by omega))
  split
  case isTrue hone htwo hthree =>
    obtain ⟨a, ha, hfirst⟩ := exists_byte (n := 0xE0 + n / 4096) (by omega)
    obtain ⟨b, hb, hsecond⟩ := exists_byte (n := 0x80 + n / 64 % 64) (by omega)
    obtain ⟨c, hc', hlast⟩ := exists_byte (n := 0x80 + n % 64) (by omega)
    have hpoint : point₃ a b c = n := by
      unfold point₃
      omega
    rw [ha, hb, hc', ← hpoint]
    exact decodeUtf8From_three offset rest (by omega) (by omega) (mayFollow_iff.2 (by omega))
      (isContinuation_iff.2 (by omega))
  case isFalse hone htwo hthree =>
    obtain ⟨a, ha, hfirst⟩ := exists_byte (n := 0xF0 + n / 262144) (by omega)
    obtain ⟨b, hb, hsecond⟩ := exists_byte (n := 0x80 + n / 4096 % 64) (by omega)
    obtain ⟨c, hc', hthird⟩ := exists_byte (n := 0x80 + n / 64 % 64) (by omega)
    obtain ⟨d, hd, hlast⟩ := exists_byte (n := 0x80 + n % 64) (by omega)
    have hpoint : point₄ a b c d = n := by
      unfold point₄
      omega
    rw [ha, hb, hc', hd, ← hpoint]
    exact decodeUtf8From_four offset rest (by omega) (by omega) (mayFollow_iff.2 (by omega))
      (isContinuation_iff.2 (by omega)) (isContinuation_iff.2 (by omega))

/-- Bytes that do not begin with one of the sequences are refused at once. -/
theorem decodeUtf8From_refuse (offset : Nat) (bytes : List UInt8) (hne : bytes ≠ []) :
    (∃ c rest, bytes = encodeCharUtf8 c ++ rest) ∨
      ∃ f, decodeUtf8From offset bytes = .error f ∧ f.start = offset := by
  -- One case for every way through the tests of the decoder.
  fun_cases decodeUtf8From offset bytes with
  | case1 => exact absurd rfl hne
  | case2 a r n hone =>
    exact .inl ⟨_, r, by rw [encodeCharUtf8_one hone, List.singleton_append]⟩
  | case6 a n hone hlead b r u hb htwo =>
    rw [Bool.not_eq_true, isLead_iff] at hlead
    rw [Bool.not_eq_true, Bool.not_eq_false'] at hb
    exact .inl ⟨_, r, by rw [encodeCharUtf8_two hlead.1 htwo hb]; rfl⟩
  | case9 a n hone hlead b u hb htwo c r v hc hthree =>
    rw [Bool.not_eq_true, Bool.not_eq_false'] at hb hc
    exact .inl ⟨_, r, by rw [encodeCharUtf8_three (Nat.le_of_not_lt htwo) hthree hb hc]; rfl⟩
  | case12 a n hone hlead b u hb htwo c v hc hthree d r w hd =>
    rw [Bool.not_eq_true, isLead_iff] at hlead
    rw [Bool.not_eq_true, Bool.not_eq_false'] at hb hc hd
    exact .inl ⟨_, r, by
      rw [encodeCharUtf8_four (Nat.le_of_not_lt hthree) hlead.2 hb hc hd]; rfl⟩
  | case3 | case4 | case5 | case7 | case8 | case10 | case11 => exact .inr ⟨_, rfl, rfl⟩

/-- Every character has a byte. -/
theorem encodeCharUtf8_ne_nil (c : Char) : encodeCharUtf8 c ≠ [] := by
  unfold encodeCharUtf8
  dsimp only
  split
  · exact List.cons_ne_nil _ _
  split
  · exact List.cons_ne_nil _ _
  split <;> exact List.cons_ne_nil _ _

/-- **UTF-8.**  The decoder takes the bytes of every character as that character, and refuses what
    does not begin with the bytes of one. -/
theorem decodes_utf8 : Decodes encodeCharUtf8 decodeUtf8From where
  ne_nil := encodeCharUtf8_ne_nil
  nil _ := by rw [decodeUtf8From]
  cons := decodeUtf8From_encodeChar
  refuse := decodeUtf8From_refuse

/-- **Different texts have different bytes.** -/
theorem encodeUtf8_inj {s t : List Char} : encodeUtf8 s = encodeUtf8 t ↔ s = t := by
  have hs : decodeUtf8From 0 (encodeUtf8 s) = .ok s := decodes_utf8.eq_ok 0 s
  have ht : decodeUtf8From 0 (encodeUtf8 t) = .ok t := decodes_utf8.eq_ok 0 t
  constructor
  · intro h
    rw [h, ht] at hs
    exact (Except.ok.inj hs).symm
  · rintro rfl
    rfl

/-! ### Strings in memory -/

/-- The bytes of a character are those that the library gives for it. -/
theorem encodeCharUtf8_eq (c : Char) : encodeCharUtf8 c = String.utf8EncodeChar c := by
  have hc := toNat_bounds c
  have hbyte {m n : Nat} (h : m = n) : m.toUInt8 = UInt8.ofNat n := congrArg UInt8.ofNat h
  unfold encodeCharUtf8 String.utf8EncodeChar
  rw [Char.toNat_val]
  generalize c.toNat = n at hc ⊢
  dsimp only
  by_cases hone : n < 0x80
  · rw [if_pos hone, if_pos (show n ≤ 127 by omega)]
  rw [if_neg hone, if_neg (show ¬n ≤ 127 by omega)]
  by_cases htwo : n < 0x800
  · rw [if_pos htwo, if_pos (show n ≤ 2047 by omega), hbyte (n := n / 64 % 32 + 192) (by omega),
      hbyte (n := n % 64 + 128) (by omega)]
  rw [if_neg htwo, if_neg (show ¬n ≤ 2047 by omega)]
  by_cases hthree : n < 0x10000
  · rw [if_pos hthree, if_pos (show n ≤ 65535 by omega),
      hbyte (n := n / 4096 % 16 + 224) (by omega), hbyte (n := n / 64 % 64 + 128) (by omega),
      hbyte (n := n % 64 + 128) (by omega)]
  · rw [if_neg hthree, if_neg (show ¬n ≤ 65535 by omega),
      hbyte (n := n / 262144 % 8 + 240) (by omega), hbyte (n := n / 4096 % 64 + 128) (by omega),
      hbyte (n := n / 64 % 64 + 128) (by omega), hbyte (n := n % 64 + 128) (by omega)]

/-- The bytes of a text are those of the string in memory. -/
theorem toByteArray_encodeUtf8 (s : List Char) :
    (encodeUtf8 s).toByteArray = (String.ofList s).toUTF8 := by
  rw [encodeUtf8, funext encodeCharUtf8_eq]
  exact String.toByteArray_ofList.symm

end LineCensus.Text
