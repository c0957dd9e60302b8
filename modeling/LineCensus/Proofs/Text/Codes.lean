import LineCensus.Text.Utf8
import Mathlib.Order.Bounds.Basic

namespace LineCensus.Text

/-!
# Decoders of codes

A code writes every character as some bytes, and a text as the bytes of its characters.

* `Decodes` — what one step of a decoder does: at the bytes of a character it takes that character,
  and where there are no such bytes it stops and names the place.
* `Decodes.cancel` — no character begins with the bytes of another one.
* `Decodes.eq_ok_iff` — the decoder gives a text for the bytes of that text and for no others.
* `Decodes.isGreatest` — it stops at the end of the longest part that is the bytes of a text.
-/

/-- The decoder refuses the bytes at once, wherever they begin. -/
def Stuck (decode : Nat → List UInt8 → Except IllFormed (List Char)) (bytes : List UInt8) : Prop :=
  ∀ offset, ∃ f, decode offset bytes = .error f ∧ f.start = offset

/-- A decoder goes through bytes as the code has written them, one character at a time. -/
structure Decodes (encode : Char → List UInt8)
    (decode : Nat → List UInt8 → Except IllFormed (List Char)) : Prop where
  /-- No character is written as nothing. -/
  ne_nil : ∀ c, encode c ≠ []
  /-- Nothing is left of a text that has been read. -/
  nil : ∀ offset, decode offset [] = .ok []
  /-- The bytes of a character are taken as that character. -/
  cons : ∀ offset c rest, decode offset (encode c ++ rest) =
    consDecoded c.toNat (decode (offset + (encode c).length) rest)
  /-- Where no character has been written, nothing is taken. -/
  refuse : ∀ offset bytes, bytes ≠ [] →
    (∃ c rest, bytes = encode c ++ rest) ∨ ∃ f, decode offset bytes = .error f ∧ f.start = offset

theorem consDecoded_toNat (c : Char) (x : Except IllFormed (List Char)) :
    consDecoded c.toNat x = x.map (c :: ·) := by
  cases x with
  | error f => rfl
  | ok s => simp only [consDecoded, Char.ofNat_toNat, Except.map]

namespace Decodes

variable {encode : Char → List UInt8} {decode : Nat → List UInt8 → Except IllFormed (List Char)}

/-! ### Texts -/

/-- The bytes of a text are taken as that text. -/
theorem append (h : Decodes encode decode) (offset : Nat) (s : List Char) (rest : List UInt8) :
    decode offset (s.flatMap encode ++ rest) =
      (decode (offset + (s.flatMap encode).length) rest).map (s ++ ·) := by
  induction s generalizing offset with
  | nil =>
    show decode offset rest = (decode offset rest).map id
    cases decode offset rest <;> rfl
  | cons c s ih =>
    rw [List.flatMap_cons, List.append_assoc, h.cons, ih, consDecoded_toNat, List.length_append,
      Nat.add_assoc]
    cases decode (offset + ((encode c).length + (s.flatMap encode).length)) rest <;> rfl

theorem eq_ok (h : Decodes encode decode) (offset : Nat) (s : List Char) :
    decode offset (s.flatMap encode) = .ok s := by
  have hall := h.append offset s []
  rw [h.nil, List.append_nil] at hall
  simpa only [Except.map, List.append_nil] using hall

/-! ### No character begins with another one -/

theorem eq_of_encode_eq_append (h : Decodes encode decode) {c d : Char} {rest : List UInt8}
    (heq : encode d = encode c ++ rest) : c = d := by
  have hd : decode 0 (encode d) = .ok [d] := by
    simpa only [List.flatMap_singleton] using h.eq_ok 0 [d]
  rw [heq, h.cons, consDecoded_toNat] at hd
  generalize decode (0 + (encode c).length) rest = x at hd
  cases x with
  | error f => cases hd
  | ok s =>
    cases hd
    rfl

/-- **Cancellation.**  Bytes that begin with a character begin with no other one. -/
theorem cancel (h : Decodes encode decode) {c d : Char} {r s : List UInt8}
    (heq : encode c ++ r = encode d ++ s) : c = d ∧ r = s := by
  have hcd : c = d := by
    rcases List.append_eq_append_iff.1 heq with ⟨t, ht, -⟩ | ⟨t, ht, -⟩
    · exact h.eq_of_encode_eq_append ht
    · exact (h.eq_of_encode_eq_append ht).symm
  subst hcd
  exact ⟨rfl, List.append_cancel_left heq⟩

/-! ### Where the decoder stops -/

theorem written_or_stuck (h : Decodes encode decode) {bytes : List UInt8} (hne : bytes ≠ []) :
    (∃ c rest, bytes = encode c ++ rest) ∨ Stuck decode bytes := by
  by_cases hwritten : ∃ c rest, bytes = encode c ++ rest
  · exact .inl hwritten
  · exact .inr fun offset => (h.refuse offset bytes hne).resolve_left hwritten

/-- Any bytes begin with the bytes of a text behind which the decoder is at the end or is stuck. -/
theorem exists_split (h : Decodes encode decode) (bytes : List UInt8) :
    ∃ (s : List Char) (rest : List UInt8),
      bytes = s.flatMap encode ++ rest ∧ (rest = [] ∨ Stuck decode rest) := by
  -- By induction on the number of bytes, which every character makes smaller.
  induction hn : bytes.length using Nat.strong_induction_on generalizing bytes with
  | _ n ih =>
    by_cases hb : bytes = []
    · exact ⟨[], bytes, rfl, .inl hb⟩
    rcases h.written_or_stuck hb with ⟨c, rest, rfl⟩ | hstuck
    · have hpos := List.length_pos_iff.2 (h.ne_nil c)
      rw [List.length_append] at hn
      obtain ⟨s, last, rfl, hlast⟩ := ih rest.length (by omega) rest rfl
      exact ⟨c :: s, last, by rw [List.flatMap_cons, List.append_assoc], hlast⟩
    · exact ⟨[], bytes, rfl, .inr hstuck⟩

/-- **What is accepted.**  The decoder gives a text exactly for the bytes of that text. -/
theorem eq_ok_iff (h : Decodes encode decode) {offset : Nat} {bytes : List UInt8}
    {s : List Char} : decode offset bytes = .ok s ↔ bytes = s.flatMap encode := by
  constructor
  · intro hs
    obtain ⟨t, rest, rfl, rfl | hrest⟩ := h.exists_split bytes
    · rw [List.append_nil, h.eq_ok] at hs
      rw [List.append_nil, Except.ok.inj hs]
    · obtain ⟨f, hf, -⟩ := hrest (offset + (t.flatMap encode).length)
      rw [h.append, hf] at hs
      cases hs
  · rintro rfl
    exact h.eq_ok offset s

/-- Bytes that are refused begin with the bytes of a text behind which the decoder is stuck. -/
theorem exists_of_error (h : Decodes encode decode) {offset : Nat} {bytes : List UInt8}
    {f : IllFormed} (hf : decode offset bytes = .error f) :
    ∃ (s : List Char) (rest : List UInt8), bytes = s.flatMap encode ++ rest ∧
      f.start = offset + (s.flatMap encode).length ∧ Stuck decode rest := by
  obtain ⟨s, rest, rfl, rfl | hrest⟩ := h.exists_split bytes
  · rw [List.append_nil, h.eq_ok] at hf
    cases hf
  · obtain ⟨g, hg, hstart⟩ := hrest (offset + (s.flatMap encode).length)
    rw [h.append, hg] at hf
    cases hf
    exact ⟨s, rest, rfl, hstart, hrest⟩

/-- The decoder is not stuck at the bytes of a character, whatever follows them. -/
theorem not_stuck (h : Decodes encode decode) (c : Char) (rest : List UInt8) :
    ¬Stuck decode (encode c ++ rest) := by
  intro hstuck
  obtain ⟨f, hf, hstart⟩ := hstuck 0
  have hpos := List.length_pos_iff.2 (h.ne_nil c)
  rw [h.cons, consDecoded_toNat] at hf
  cases hr : decode (0 + (encode c).length) rest with
  | ok s =>
    rw [hr] at hf
    cases hf
  | error g =>
    -- A fault in the rest is named behind the bytes of the character.
    rw [hr] at hf
    cases hf
    obtain ⟨s, last, -, hg, -⟩ := h.exists_of_error hr
    omega

/-- Where the decoder is stuck behind a text, no longer text has been written. -/
theorem length_le (h : Decodes encode decode) {s t : List Char} {r q : List UInt8}
    (hr : Stuck decode r) (heq : t.flatMap encode ++ q = s.flatMap encode ++ r) :
    (t.flatMap encode).length ≤ (s.flatMap encode).length := by
  induction s generalizing t with
  | nil =>
    cases t with
    | nil => exact Nat.le_refl _
    | cons c t =>
      rw [List.flatMap_cons, List.append_assoc] at heq
      have hbytes : r = encode c ++ (t.flatMap encode ++ q) := heq.symm
      exact absurd (hbytes ▸ hr) (h.not_stuck c _)
  | cons d s ih =>
    cases t with
    | nil => exact Nat.zero_le _
    | cons c t =>
      rw [List.flatMap_cons, List.flatMap_cons, List.append_assoc, List.append_assoc] at heq
      obtain ⟨rfl, htail⟩ := h.cancel heq
      rw [List.flatMap_cons, List.flatMap_cons, List.length_append, List.length_append]
      exact Nat.add_le_add_left (ih htail) _

/-- **What is refused.**  The decoder stops at the end of the longest part that is the bytes of a
    text. -/
theorem isGreatest (h : Decodes encode decode) {offset : Nat} {bytes : List UInt8}
    {f : IllFormed} (hf : decode offset bytes = .error f) :
    ∃ n, f.start = offset + n ∧
      IsGreatest {n | n ≤ bytes.length ∧ ∃ s : List Char, bytes.take n = s.flatMap encode} n := by
  obtain ⟨s, rest, rfl, hstart, hrest⟩ := h.exists_of_error hf
  refine ⟨(s.flatMap encode).length, hstart, ⟨?_, s, List.take_left⟩, ?_⟩
  · rw [List.length_append]
    exact Nat.le_add_right _ _
  · rintro n ⟨hn, t, ht⟩
    have hlength : n = (t.flatMap encode).length := by
      rw [← ht, List.length_take, Nat.min_eq_left hn]
    have hwhole : t.flatMap encode ++ (s.flatMap encode ++ rest).drop n =
        s.flatMap encode ++ rest := by
      rw [← ht, List.take_append_drop]
    exact hlength ▸ h.length_le hrest hwhole

end Decodes

end LineCensus.Text
