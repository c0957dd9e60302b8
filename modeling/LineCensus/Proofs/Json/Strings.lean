import LineCensus.Json.Parser
import LineCensus.Json.Printer
import LineCensus.Proofs.Text.Digit
import LineCensus.Proofs.Text.Pairs

namespace LineCensus.Json

open Text

/-!
# Strings read back

* `readUnit?_showHex`, `readEscape_unit`, `readEscape_pair` — the escapes of one unit and of a pair
  of surrogates.
* `writeChar_forms` — the ways in which a character is written.
* `readString_writeChar`, `readString_surrogate` — one letter of a string, in whichever way it is
  written.
* `readString_written` — a whole string in which no two surrogates make a pair.

Every lemma holds with and without letters beyond ASCII.
-/

/-! ### Escapes -/

/-- Four digits are read as the unit that they were written for. -/
theorem readUnit?_showHex {u : Nat} (hu : u < 0x10000) {s : Letters} (hs : s ≠ []) :
    readUnit? (letters (showHex 4 u) ++ s) = some (u, s) := by
  have hdigits : ((u / 4096 % 16 * 16 + u / 256 % 16) * 16 + u / 16 % 16) * 16 + u / 1 % 16 = u := by
    omega
  have hlt (n : Nat) : n % 16 < 16 := Nat.mod_lt n (by decide)
  rw [showHex_four]
  show (if s.isEmpty then none else (unit? _ _ _ _).map (·, s)) = _
  simp only [List.isEmpty_iff, hs, if_false, unit?, digit?, hexValue?_hexDigit (hlt _),
    Option.bind_eq_bind, Option.bind_some, Option.pure_def, Option.map_some, hdigits]

/-- A unit stands for itself, unless it is the first of a pair and the second one follows. -/
theorem readEscape_unit {u : Nat} (hu : u < 0x10000) {s : Letters} (hs : s ≠ [])
    (h : isHighSurrogate u = true → readLowSurrogate s = .ok none) :
    readEscape (letters (showHex 4 u) ++ s) = .ok (.ofCode u, s) := by
  rw [readEscape, readUnit?_showHex hu hs]
  cases hhigh : isHighSurrogate u with
  | false => simp only [hhigh, Bool.false_eq_true, if_false]
  | true => simp only [hhigh, if_true, h hhigh]

/-- The escape of a second surrogate is taken, that of any other unit is left. -/
theorem readLowSurrogate_unitEscape {v : Nat} (hv : v < 0x10000) {s : Letters} (hs : s ≠ []) :
    readLowSurrogate (letters (unitEscape v) ++ s) =
      .ok (if isLowSurrogate v then some (v, s) else none) := by
  have hrest : ((letters (showHex 4 v) ++ s).drop 4).isEmpty = false := by
    rw [showHex_four]
    exact List.isEmpty_eq_false_iff.2 hs
  rw [unitEscape, letters_cons, letters_cons, List.cons_append, List.cons_append, readLowSurrogate]
  simp only [hrest, Bool.false_eq_true, if_false, readUnit?_showHex hv hs]

/-- The two escapes of a character beyond the first plane stand for that character. -/
theorem readEscape_pair {c : Char} (hc : ¬c.toNat < 0x10000) {s : Letters} (hs : s ≠ []) :
    readEscape (letters (showHex 4 (highUnit c)) ++ (letters (unitEscape (lowUnit c)) ++ s)) =
      .ok (.char c, s) := by
  have hpair := readUnit?_showHex (highUnit_lt c)
    (List.append_ne_nil_of_right_ne_nil (letters (unitEscape (lowUnit c))) hs)
  have hsecond := readLowSurrogate_unitEscape (lowUnit_lt c) hs
  rw [isLowSurrogate_lowUnit, if_pos rfl] at hsecond
  rw [readEscape, hpair]
  simp only [isHighSurrogate_highUnit, if_true, hsecond, joinSurrogates_units hc]
  exact congrArg (fun d => Except.ok (d, s)) (Letter.ofCode_code (.char c))

/-! ### Characters -/

variable {opening : Letters}

/-- A letter that is neither a mark nor a control character stands for itself. -/
theorem readString_plain {c : Letter} (hq : c ≠ .char '"') (hb : c ≠ .char '\\')
    (hn : ¬c.code < 32) (s : Letters) :
    readString opening (c :: s) = consLetter c (readString opening s) := by
  rw [readString.eq_def]
  simp only [hq, hb, hn, if_false]

/-- A backslash and a letter stand for one character. -/
theorem readString_letter {e : Letter} {c : Char} (hu : e ≠ .char 'u') (he : escaped? e = some c)
    (s : Letters) :
    readString opening (.char '\\' :: e :: s) = consLetter c (readString opening s) := by
  rw [readString, if_neg (by decide), if_pos rfl]
  simp only [hu, if_false, he]

/-- So do a backslash and the digits behind it. -/
theorem readString_escape {s r : Letters} {c : Letter} (h : readEscape s = .ok (c, r)) :
    readString opening (.char '\\' :: .char 'u' :: s) = consLetter c (readString opening r) := by
  rw [readString, if_neg (by decide), if_pos rfl]
  simp only [if_true]
  split
  · next hf => rw [h] at hf; cases hf
  · next hf => rw [h] at hf; cases hf; rfl

/-- The escapes of a character, one or two, stand for that character. -/
theorem readString_escapes (c : Char) {s : Letters} (hs : s ≠ []) :
    readString opening (letters ((unitsOf c).flatMap unitEscape) ++ s) =
      consLetter c (readString opening s) := by
  by_cases hc : c.toNat < 0x10000
  · have hescape := readEscape_unit hc hs fun h => absurd h (by rw [isHighSurrogate_toNat]; decide)
    have hself : Letter.ofCode c.toNat = .char c := Letter.ofCode_code (.char c)
    rw [hself] at hescape
    rw [unitsOf_small hc, List.flatMap_singleton]
    exact readString_escape hescape
  · rw [unitsOf_large hc, List.flatMap_cons, List.flatMap_singleton, letters_append,
      List.append_assoc]
    exact readString_escape (readEscape_pair hc hs)

/-- **Written characters.**  A character is written as it is, as a backslash and a letter, or as the
    escapes of its units. -/
theorem writeChar_forms (ascii : Bool) (c : Char) :
    (writeChar ascii c = [c] ∧ c ≠ '"' ∧ c ≠ '\\' ∧ ¬c.toNat < 32) ∨
      (∃ e : Char, writeChar ascii c = ['\\', e] ∧ e ≠ 'u' ∧ escaped? e = some c) ∨
        writeChar ascii c = (unitsOf c).flatMap unitEscape := by
  simp only [writeChar, Bool.or_eq_true, decide_eq_true_eq]
  by_cases hmark : c = '"' ∨ c = '\\'
  · rw [if_pos hmark]
    rcases hmark with rfl | rfl
    · exact .inr (.inl ⟨'"', rfl, by decide, rfl⟩)
    · exact .inr (.inl ⟨'\\', rfl, by decide, rfl⟩)
  obtain ⟨hq, hb⟩ := not_or.1 hmark
  rw [if_neg hmark]
  -- The controls that have a letter of their own, then those that take a unit.
  by_cases hn : c = '\n'
  · rw [if_pos hn, hn]
    exact .inr (.inl ⟨'n', rfl, by decide, rfl⟩)
  rw [if_neg hn]
  by_cases hr : c = '\r'
  · rw [if_pos hr, hr]
    exact .inr (.inl ⟨'r', rfl, by decide, rfl⟩)
  rw [if_neg hr]
  by_cases ht : c = '\t'
  · rw [if_pos ht, ht]
    exact .inr (.inl ⟨'t', rfl, by decide, rfl⟩)
  rw [if_neg ht]
  by_cases h8 : c = '\x08'
  · rw [if_pos h8, h8]
    exact .inr (.inl ⟨'b', rfl, by decide, rfl⟩)
  rw [if_neg h8]
  by_cases hc : c = '\x0c'
  · rw [if_pos hc, hc]
    exact .inr (.inl ⟨'f', rfl, by decide, rfl⟩)
  rw [if_neg hc]
  by_cases hesc : c.toNat < 32 ∨ (ascii && decide (127 ≤ c.toNat)) = true
  · exact .inr (.inr (if_pos hesc))
  · exact .inl ⟨if_neg hesc, hq, hb, fun hlt => hesc (.inl hlt)⟩

/-- **One character.**  Whichever way a character is written, it is read as itself. -/
theorem readString_writeChar (ascii : Bool) (c : Char) {s : Letters} (hs : s ≠ []) :
    readString opening (letters (writeChar ascii c) ++ s) = consLetter c (readString opening s) := by
  rcases writeChar_forms ascii c with ⟨h, hq, hb, hn⟩ | ⟨e, h, hu, he⟩ | h
  · rw [h]
    exact readString_plain (fun hc => hq (Letter.char.inj hc)) (fun hc => hb (Letter.char.inj hc))
      hn s
  · rw [h]
    exact readString_letter (fun hc => hu (Letter.char.inj hc)) he s
  · rw [h]
    exact readString_escapes c hs

/-! ### Surrogates -/

/-- A letter that is no second surrogate does not complete a pair, however it is written. -/
theorem readLowSurrogate_writeLetter (ascii : Bool) {a : Letter} (ha : a.isLow = false)
    {s : Letters} (hs : s ≠ []) : readLowSurrogate (writeLetter ascii a ++ s) = .ok none := by
  -- What begins with a backslash and a `u` is the escape of a unit, and no second one.
  have hunit {u : Nat} (hu : u < 0x10000) (hl : isLowSurrogate u = false) {t : Letters}
      (ht : t ≠ []) : readLowSurrogate (letters (unitEscape u) ++ t) = .ok none := by
    rw [readLowSurrogate_unitEscape hu ht, hl, if_neg Bool.false_ne_true]
  cases a with
  | surrogate n =>
    cases ascii with
    | false => rfl
    | true =>
      have hn := n.isLt
      refine hunit ?_ ((isLowSurrogate_code _).trans ha) hs
      show 0xD800 + n.val < 0x10000
      omega
  | char c =>
    rw [writeLetter]
    rcases writeChar_forms ascii c with ⟨h, -, hb, -⟩ | ⟨e, h, hu, -⟩ | h
    · rw [h]
      unfold readLowSurrogate
      split
      · next heq => exact absurd (Letter.char.inj (List.cons.inj heq).1) hb
      · rfl
    · rw [h]
      unfold readLowSurrogate
      split
      · next heq => exact absurd (Letter.char.inj (List.cons.inj (List.cons.inj heq).2).1) hu
      · rfl
    · rw [h]
      by_cases hc : c.toNat < 0x10000
      · rw [unitsOf_small hc, List.flatMap_singleton]
        exact hunit hc ((isLowSurrogate_code (.char c)).trans ha) hs
      · have hlow : isLowSurrogate (highUnit c) = false := by
          have h := highUnit_bounds c
          simp only [isLowSurrogate, Bool.and_eq_false_iff, decide_eq_false_iff_not]
          omega
        rw [unitsOf_large hc, List.flatMap_cons, List.flatMap_singleton, letters_append,
          List.append_assoc]
        exact hunit (highUnit_lt c) hlow (List.append_ne_nil_of_right_ne_nil _ hs)

/-- **One surrogate.**  A surrogate is read as itself, unless it is the first half of a pair and the
    second one follows. -/
theorem readString_surrogate (ascii : Bool) {n : Fin 2048} {s : Letters} (hs : s ≠ [])
    (h : (Letter.surrogate n).isHigh = true → readLowSurrogate s = .ok none) :
    readString opening (writeLetter ascii (.surrogate n) ++ s) =
      consLetter (.surrogate n) (readString opening s) := by
  have hn := n.isLt
  cases ascii with
  | false =>
    refine readString_plain Letter.noConfusion Letter.noConfusion ?_ s
    show ¬0xD800 + n.val < 32
    omega
  | true =>
    have hlt : (Letter.surrogate n).code < 0x10000 := by
      show 0xD800 + n.val < 0x10000
      omega
    have hescape := readEscape_unit hlt hs fun hhigh =>
      h ((isHighSurrogate_code (.surrogate n)).symm.trans hhigh)
    rw [Letter.ofCode_code] at hescape
    exact readString_escape hescape

/-! ### Whole strings -/

/-- **Strings are read back.**  The letters of a string up to its closing mark are read as
    themselves, if no two surrogates in it make a pair. -/
theorem readString_written (ascii : Bool) {s : Letters} (h : hasSplitPair s = false)
    (rest : Letters) :
    readString opening (s.flatMap (writeLetter ascii) ++ .char '"' :: rest) = .ok (s, rest) := by
  induction s with
  | nil =>
    rw [List.flatMap_nil, List.nil_append, readString.eq_def]
    rfl
  | cons a s ih =>
    have hne : s.flatMap (writeLetter ascii) ++ .char '"' :: rest ≠ [] :=
      List.append_ne_nil_of_right_ne_nil _ (List.cons_ne_nil _ _)
    have hone : readString opening
        (writeLetter ascii a ++ (s.flatMap (writeLetter ascii) ++ .char '"' :: rest)) =
          consLetter a
            (readString opening (s.flatMap (writeLetter ascii) ++ .char '"' :: rest)) := by
      cases a with
      | char c => exact readString_writeChar ascii c hne
      | surrogate n =>
        refine readString_surrogate ascii hne fun hhigh => ?_
        -- The letter behind a first surrogate is no second one.
        cases s with
        | nil => rfl
        | cons b s =>
          rw [hasSplitPair, hhigh, Bool.true_and, Bool.or_eq_false_iff] at h
          rw [List.flatMap_cons, List.append_assoc]
          exact readLowSurrogate_writeLetter ascii h.1
            (List.append_ne_nil_of_right_ne_nil _ (List.cons_ne_nil _ _))
    rw [List.flatMap_cons, List.append_assoc, hone, ih (hasSplitPair_of_cons h), consLetter]

/-- The text of a string is an opening mark, its letters and a closing mark. -/
theorem writeString_append (ascii : Bool) (s rest : Letters) :
    writeString ascii s ++ rest =
      .char '"' :: (s.flatMap (writeLetter ascii) ++ .char '"' :: rest) := by
  simp only [writeString, List.cons_append, List.append_assoc, List.nil_append]

end LineCensus.Json
