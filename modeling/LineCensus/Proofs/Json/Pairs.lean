import LineCensus.Proofs.Json.Strings

namespace LineCensus

open Text Json

/-!
# Pairs of surrogates in written values

In ASCII a character beyond the first plane is written as the escapes of its two units, so a value
has the same text with pairs of surrogates as with the characters of these.

* `Value.joined` — the value with the pairs in its texts as characters.
* `write_joined` — it has the same text in ASCII.
* `exists_letters_write` — and that text has no surrogates in it.
-/

mutual

/-- The value with pairs of surrogates in its texts as characters.  Names of entries stay as they
    are. -/
def Value.joined : Value Letters → Value Letters
  | .text s => .text (joinPairs s)
  | .list items => .list (joinedItems items)
  | .table entries => .table (joinedEntries entries)
  | v => v

/-- The items with such pairs as characters. -/
def joinedItems : List (Value Letters) → List (Value Letters)
  | [] => []
  | v :: vs => v.joined :: joinedItems vs

/-- The entries with such pairs as characters. -/
def joinedEntries : List (Letters × Value Letters) → List (Letters × Value Letters)
  | [] => []
  | (name, v) :: es => (name, v.joined) :: joinedEntries es

end

/-- The items of a list are joined one by one. -/
theorem joinedItems_eq_map (items : List (Value Letters)) :
    joinedItems items = items.map Value.joined := by
  induction items with
  | nil => rfl
  | cons v vs ih => rw [joinedItems, ih, List.map_cons]

/-- The entries of a table are joined one by one. -/
theorem joinedEntries_eq_map (entries : List (Letters × Value Letters)) :
    joinedEntries entries = entries.map fun e => (e.1, e.2.joined) := by
  induction entries with
  | nil => rfl
  | cons e es ih => rw [joinedEntries, ih, List.map_cons]

/-! ### Texts -/

namespace Json

/-- A character beyond the first plane is written as the escapes of its two units. -/
theorem writeChar_large {c : Char} (hc : ¬c.toNat < 0x10000) :
    writeChar true c = (unitsOf c).flatMap unitEscape := by
  have hne (d : Char) (hd : d.toNat < 0x10000) : c ≠ d := by
    rintro rfl
    exact hc hd
  have hlarge : 127 ≤ c.toNat := by omega
  simp only [writeChar, hne '"' (by decide), hne '\\' (by decide), hne '\n' (by decide),
    hne '\r' (by decide), hne '\t' (by decide), hne '\x08' (by decide), hne '\x0c' (by decide),
    hlarge, decide_false, decide_true, Bool.or_self, Bool.and_self, Bool.or_true,
    Bool.false_eq_true, if_false, if_true]

/-- Two surrogates are written like the character of their pair. -/
theorem writeLetter_pair {a b : Letter} (ha : a.isHigh = true) (hb : b.isLow = true) :
    writeLetter true (.char (pairChar a b)) = writeLetter true a ++ writeLetter true b := by
  have hunits := unitsOf_pairChar ha hb
  have hlarge : ¬(pairChar a b).toNat < 0x10000 := by
    intro hsmall
    rw [unitsOf_small hsmall] at hunits
    exact absurd (congrArg List.length hunits) (Nat.succ_ne_succ_iff.2 Nat.zero_ne_one)
  rw [writeLetter, writeChar_large hlarge, hunits]
  cases a with
  | char c => cases ha
  | surrogate m =>
    cases b with
    | char c => cases hb
    | surrogate n =>
      rw [List.flatMap_cons, List.flatMap_singleton, letters_append]
      rfl

/-- **Strings.**  In ASCII a string is written like the one with its pairs as characters. -/
theorem writeString_joinPairs (s : Letters) :
    writeString true (joinPairs s) = writeString true s := by
  have hletters : (joinPairs s).flatMap (writeLetter true) = s.flatMap (writeLetter true) := by
    induction s using joinPairs.induct with
    | case1 => rfl
    | case2 a => rfl
    | case3 a b s hpair ih =>
      rw [joinPairs_pair s hpair, List.flatMap_cons, ih]
      rw [Bool.and_eq_true] at hpair
      rw [writeLetter_pair hpair.1 hpair.2, List.flatMap_cons, List.flatMap_cons,
        List.append_assoc]
    | case4 a b s hpair ih =>
      rw [joinPairs_cons s hpair, List.flatMap_cons, ih, ← List.flatMap_cons]
  rw [writeString, hletters, writeString]

variable {style : Style}

mutual

/-- **Values.**  In ASCII a value is written like the one with its pairs as characters. -/
theorem writeAt_joined (hascii : style.asciiOnly = true) (depth : Nat) (v : Value Letters) :
    writeAt style depth v.joined = writeAt style depth v := by
  cases v with
  | text s =>
    rw [Value.joined, writeAt, writeAt, hascii, writeString_joinPairs]
  | list items =>
    rw [Value.joined, writeAt, writeAt, writeItems_joined hascii (depth + 1) items]
  | table entries =>
    rw [Value.joined, writeAt, writeAt, writeEntries_joined hascii (depth + 1) entries]
  | _ => rfl

/-- So are the items of a list. -/
theorem writeItems_joined (hascii : style.asciiOnly = true) (depth : Nat)
    (items : List (Value Letters)) :
    writeItems style depth (joinedItems items) = writeItems style depth items := by
  cases items with
  | nil => rfl
  | cons v vs =>
    rw [joinedItems, writeItems, writeItems, writeAt_joined hascii depth v,
      writeItems_joined hascii depth vs]

/-- So are the entries of a table. -/
theorem writeEntries_joined (hascii : style.asciiOnly = true) (depth : Nat)
    (entries : List (Letters × Value Letters)) :
    writeEntries style depth (joinedEntries entries) = writeEntries style depth entries := by
  cases entries with
  | nil => rfl
  | cons e es =>
    obtain ⟨name, v⟩ := e
    rw [joinedEntries, writeEntries, writeEntries, writeAt_joined hascii depth v,
      writeEntries_joined hascii depth es]

end

/-- A value is written in ASCII like the one with its pairs as characters. -/
theorem write_joined (hascii : style.asciiOnly = true) (v : Value Letters) :
    write style v.joined = write style v := writeAt_joined hascii 0 v

/-! ### Texts without surrogates -/

variable {n : Fin 2048}

/-- In ASCII no letter is written with a surrogate. -/
theorem surrogate_not_mem_writeString (s : Letters) : Letter.surrogate n ∉ writeString true s := by
  have hletters (t : List Char) : Letter.surrogate n ∉ letters t := by
    intro h
    obtain ⟨c, -, hc⟩ := List.mem_map.1 h
    cases hc
  have hletter (a : Letter) : Letter.surrogate n ∉ writeLetter true a := by
    cases a with
    | char c => exact hletters _
    | surrogate m => exact hletters _
  rw [writeString, List.mem_append, List.mem_cons, List.mem_flatMap, List.mem_singleton]
  rintro ((h | ⟨a, -, h⟩) | h)
  · cases h
  · exact hletter a h
  · cases h

/-- A surrogate between brackets is in one of the entries. -/
theorem exists_mem_of_mem_bracketed {depth : Nat} {opening closing : Char} {es : List Letters}
    (h : Letter.surrogate n ∈ bracketed style depth opening closing es) :
    ∃ e ∈ es, Letter.surrogate n ∈ e := by
  have hbreak (depth : Nat) : Letter.surrogate n ∉ style.break depth := by
    rw [Style.break]
    cases style.indent with
    | none => exact List.not_mem_nil
    | some k => simp
  cases es with
  | nil => simp [bracketed] at h
  | cons e es =>
    simp only [bracketed, List.mem_append, List.mem_cons, List.mem_flatMap, List.not_mem_nil,
      reduceCtorEq, hbreak, false_or, or_false] at h
    rcases h with h | ⟨e', he', h⟩
    · exact ⟨e, List.mem_cons_self, h⟩
    · exact ⟨e', List.mem_cons_of_mem e he', h⟩

mutual

/-- **Texts in ASCII.**  The text of a value has no surrogates then. -/
theorem surrogate_not_mem_writeAt (hascii : style.asciiOnly = true) (depth : Nat)
    (v : Value Letters) : Letter.surrogate n ∉ writeAt style depth v := by
  intro h
  cases v with
  | null | calendar | float x => exact surrogate_not_mem_ofString n _ h
  | bool b => cases b <;> exact surrogate_not_mem_ofString n _ h
  | int k =>
    obtain ⟨c, -, hc⟩ := List.mem_map.1 h
    cases hc
  | text s =>
    rw [writeAt, hascii] at h
    exact surrogate_not_mem_writeString s h
  | list items =>
    obtain ⟨e, he, h⟩ := exists_mem_of_mem_bracketed h
    exact surrogate_not_mem_writeItems hascii (depth + 1) items e he h
  | table entries =>
    obtain ⟨e, he, h⟩ := exists_mem_of_mem_bracketed h
    exact surrogate_not_mem_writeEntries hascii (depth + 1) entries e he h

/-- Nor have those of the items of a list. -/
theorem surrogate_not_mem_writeItems (hascii : style.asciiOnly = true) (depth : Nat)
    (items : List (Value Letters)) :
    ∀ e ∈ writeItems style depth items, Letter.surrogate n ∉ e := by
  cases items with
  | nil => exact List.forall_mem_nil _
  | cons v vs =>
    exact List.forall_mem_cons.2 ⟨surrogate_not_mem_writeAt hascii depth v,
      surrogate_not_mem_writeItems hascii depth vs⟩

/-- Nor have those of the entries of a table. -/
theorem surrogate_not_mem_writeEntries (hascii : style.asciiOnly = true) (depth : Nat)
    (entries : List (Letters × Value Letters)) :
    ∀ e ∈ writeEntries style depth entries, Letter.surrogate n ∉ e := by
  cases entries with
  | nil => exact List.forall_mem_nil _
  | cons e es =>
    obtain ⟨name, v⟩ := e
    refine List.forall_mem_cons.2 ⟨?_, surrogate_not_mem_writeEntries hascii depth es⟩
    have hcolon : Letter.surrogate n ∉ style.colon := by
      rw [Style.colon]
      cases style.indent <;> simp
    rw [hascii, List.mem_append, List.mem_append]
    rintro ((h | h) | h)
    · exact surrogate_not_mem_writeString name h
    · exact hcolon h
    · exact surrogate_not_mem_writeAt hascii depth v h

end

/-- So the text of a value in ASCII has characters. -/
theorem exists_letters_write (hascii : style.asciiOnly = true) (v : Value Letters) :
    ∃ s, write style v = letters s := by
  cases h : chars? (write style v) with
  | none =>
    obtain ⟨n, hn⟩ := chars?_eq_none_iff.1 h
    exact absurd hn (surrogate_not_mem_writeAt hascii 0 v)
  | some s => exact ⟨s, chars?_eq_some_iff.1 h⟩

end Json

end LineCensus
