import LineCensus.Proofs.Json.Numbers
import LineCensus.Proofs.Json.Strings
import LineCensus.Proofs.Table

namespace LineCensus.Json

open Text

/-!
# Values read back

* `Within` — a value that keeps within the bounds of the reader and holds nothing but what JSON has
  a text for: whole numbers, strings without pairs of surrogates, truth values, lists, and tables
  with distinct keys.
* `ReadsBack` — at any depth and in front of any text that cannot belong to it, the text of the
  value is read as the value.
* `readItems_written`, `readMembers_written` — the entries of a list and of a table.
* `Within.readsBack` — every value within the bounds.
* `parse_write` — a whole text.
-/

/-- The value has a text that is read: no number has too many digits, no two surrogates make a pair,
    no table has a key twice, and there are at most `room` levels. -/
inductive Within : Nat → Value Letters → Prop where
  | null {room : Nat} : Within room .null
  | bool {room : Nat} (b : Bool) : Within room (.bool b)
  | int {room : Nat} {n : Int} (h : (showNat n.natAbs).length ≤ maxDigits) : Within room (.int n)
  | text {room : Nat} {s : Letters} (h : hasSplitPair s = false) : Within room (.text s)
  | list {room : Nat} {items : List (Value Letters)} (h : ∀ v ∈ items, Within room v) :
      Within (room + 1) (.list items)
  | table {room : Nat} {entries : List (Letters × Value Letters)} (hkeys : (entries.map (·.1)).Nodup)
      (hnames : ∀ e ∈ entries, hasSplitPair e.1 = false) (h : ∀ e ∈ entries, Within room e.2) :
      Within (room + 1) (.table entries)

/-! ### White space -/

/-- Nothing is passed over in front of anything but white space. -/
theorem skipSpace_cons {c : Char} (h : isSpace c = false) (s : Letters) :
    skipSpace (.char c :: s) = .char c :: s :=
  List.dropWhile_cons_of_neg (by rw [Letter.isChar, h]; decide)

/-- Line breaks between entries are passed over. -/
theorem skipSpace_break (style : Style) (depth : Nat) (s : Letters) :
    skipSpace (style.break depth ++ s) = skipSpace s := by
  rw [Style.break]
  cases style.indent with
  | none => rfl
  | some n =>
    apply List.dropWhile_append_of_pos
    intro c hc
    rcases List.mem_cons.1 hc with rfl | hc
    · rfl
    · rw [(List.mem_replicate.1 hc).2]
      rfl

/-- No number goes on behind a line break. -/
theorem endsWord_break (style : Style) (depth : Nat) {s : Letters} (h : EndsWord s) :
    EndsWord (style.break depth ++ s) := by
  rw [Style.break]
  cases style.indent with
  | none => exact h
  | some n => exact endsWord_cons (by decide)

/-- No digit is white space. -/
theorem isSpace_of_isDigit {c : Char} (h : isDigit c = true) : isSpace c = false := by
  by_contra hspace
  simp only [isSpace, Bool.not_eq_false, Bool.or_eq_true, beq_iff_eq] at hspace
  rcases hspace with ((rfl | rfl) | rfl) | rfl <;> exact absurd h (by decide)

/-- A text begins neither with white space, nor with the end of a list, nor with a byte order
    mark. -/
theorem Within.head {room : Nat} {v : Value Letters} (h : Within room v) (style : Style)
    (depth : Nat) :
    ∃ c s, writeAt style depth v = .char c :: s ∧ isSpace c = false ∧ c ≠ ']' ∧ c ≠ '\ufeff' := by
  cases h with
  | null => exact ⟨'n', _, rfl, by decide, by decide, by decide⟩
  | bool b =>
    cases b with
    | false => exact ⟨'f', _, rfl, by decide, by decide, by decide⟩
    | true => exact ⟨'t', _, rfl, by decide, by decide, by decide⟩
  | @int room n hn =>
    cases n with
    | ofNat n =>
      obtain ⟨c, s, hs, hc⟩ := showNat_eq_cons n
      exact ⟨c, letters s, congrArg letters hs, isSpace_of_isDigit hc, ne_of_isDigit hc (by decide),
        ne_of_isDigit hc (by decide)⟩
    | negSucc n => exact ⟨'-', _, rfl, by decide, by decide, by decide⟩
  | text hs => exact ⟨'"', _, rfl, by decide, by decide, by decide⟩
  | @list room items h =>
    cases items with
    | nil => exact ⟨'[', _, rfl, by decide, by decide, by decide⟩
    | cons v vs => exact ⟨'[', _, rfl, by decide, by decide, by decide⟩
  | @table room entries hkeys hnames h =>
    cases entries with
    | nil => exact ⟨'\x7b', _, rfl, by decide, by decide, by decide⟩
    | cons e es => exact ⟨'\x7b', _, rfl, by decide, by decide, by decide⟩

/-- A text is not empty. -/
theorem Within.length_pos {room : Nat} {v : Value Letters} (h : Within room v) (style : Style)
    (depth : Nat) : 0 < (writeAt style depth v).length := by
  obtain ⟨c, t, ht, -⟩ := h.head style depth
  rw [ht]
  exact Nat.succ_pos t.length

/-- In front of a text there is no white space. -/
theorem Within.skipSpace_writeAt {room : Nat} {v : Value Letters} (h : Within room v) (style : Style)
    (depth : Nat) (s : Letters) :
    skipSpace (writeAt style depth v ++ s) = writeAt style depth v ++ s := by
  obtain ⟨c, t, ht, hc, -⟩ := h.head style depth
  rw [ht]
  exact skipSpace_cons hc (t ++ s)

/-! ### Entries -/

/-- Wherever the value is written, its text is read as the value, given fuel for every character. -/
def ReadsBack (style : Style) (room : Nat) (v : Value Letters) : Prop :=
  ∀ depth fuel rest, EndsWord rest → (writeAt style depth v).length ≤ fuel →
    readValue fuel room (writeAt style depth v ++ rest) = .ok (v, rest)

/-- What stands behind an entry: the further ones, each behind a comma, the closing bracket, and the
    text behind that. -/
def entryEnd (style : Style) (depth : Nat) (closing : Char) (entries : List Letters)
    (rest : Letters) : Letters :=
  entries.flatMap (fun e => .char ',' :: style.break (depth + 1) ++ e) ++
    (style.break depth ++ .char closing :: rest)

/-- The text of entries is an opening bracket, the first one and what stands behind it. -/
theorem bracketed_cons (style : Style) (depth : Nat) (opening closing : Char) (e : Letters)
    (es : List Letters) (rest : Letters) :
    bracketed style depth opening closing (e :: es) ++ rest =
      .char opening :: (style.break (depth + 1) ++ (e ++ entryEnd style depth closing es rest)) := by
  simp only [bracketed, entryEnd, List.cons_append, List.append_assoc, List.nil_append]

/-- Behind an entry there stand a comma, the next one and what stands behind that. -/
theorem entryEnd_cons (style : Style) (depth : Nat) (closing : Char) (e : Letters)
    (es : List Letters) (rest : Letters) :
    entryEnd style depth closing (e :: es) rest =
      .char ',' :: (style.break (depth + 1) ++ (e ++ entryEnd style depth closing es rest)) := by
  simp only [entryEnd, List.flatMap_cons, List.cons_append, List.append_assoc]

/-- Behind an entry at least a bracket closes. -/
theorem lt_length_entryEnd (style : Style) (depth : Nat) (closing : Char)
    (es : List Letters) (rest : Letters) :
    rest.length < (entryEnd style depth closing es rest).length := by
  simp only [entryEnd, List.length_append, List.length_cons]
  omega

/-- No number goes on behind an entry. -/
theorem endsWord_entryEnd (style : Style) (depth : Nat) (closing : Char)
    (hc : isWordChar closing = false)
    (es : List Letters) (rest : Letters) :
    EndsWord (entryEnd style depth closing es rest) := by
  cases es with
  | nil => exact endsWord_break style depth (endsWord_cons hc)
  | cons e es =>
    rw [entryEnd_cons]
    exact endsWord_cons (by decide)

/-- **Items are read back.**  The items of a list are read up to the closing bracket. -/
theorem readItems_written {style : Style} {room : Nat} (depth : Nat) (rest : Letters)
    {v : Value Letters} {vs : List (Value Letters)}
    (h : ∀ w ∈ v :: vs, Within room w ∧ ReadsBack style room w) (fuel : Nat)
    (hfuel : (writeAt style (depth + 1) v ++
      entryEnd style depth ']' (writeItems style (depth + 1) vs) rest).length ≤
        fuel + rest.length) :
    readItems fuel room (writeAt style (depth + 1) v ++
      entryEnd style depth ']' (writeItems style (depth + 1) vs) rest) = .ok (v :: vs, rest) := by
  have hlt := lt_length_entryEnd style depth ']' (writeItems style (depth + 1) vs) rest
  have hends := endsWord_entryEnd style depth ']' (by decide)
    (writeItems style (depth + 1) vs) rest
  rw [List.length_append] at hfuel
  obtain ⟨fuel, rfl⟩ : ∃ f, fuel = f + 1 := ⟨fuel - 1, by omega⟩
  -- One call reads the first item; the text behind it tells whether another one follows.
  have hv := (h v List.mem_cons_self).2 (depth + 1) fuel _ hends (by omega)
  rw [readItems, hv]
  cases vs with
  | nil =>
    simp only [writeItems, entryEnd, List.flatMap_nil, List.nil_append, skipSpace_break,
      skipSpace_cons (show isSpace ']' = false by decide)]
  | cons w ws =>
    rw [writeItems, entryEnd_cons, List.length_cons, List.length_append] at hfuel
    have hws := readItems_written depth rest (fun u hu => h u (List.mem_cons_of_mem v hu)) fuel
      (by omega)
    have hw := (h w (List.mem_cons_of_mem v List.mem_cons_self)).1.skipSpace_writeAt style
    rw [writeItems, entryEnd_cons]
    simp only [skipSpace_cons (show isSpace ',' = false by decide), skipSpace_break, hw, hws]
termination_by vs.length

/-- The text of a member of an object. -/
def memberText (style : Style) (depth : Nat) (e : Letters × Value Letters) : Letters :=
  writeString style.asciiOnly e.1 ++ style.colon ++ writeAt style depth e.2

theorem writeEntries_cons (style : Style) (depth : Nat) (e : Letters × Value Letters)
    (es : List (Letters × Value Letters)) :
    writeEntries style depth (e :: es) = memberText style depth e :: writeEntries style depth es :=
  rfl

theorem length_writeAt_le (style : Style) (depth : Nat) (e : Letters × Value Letters) :
    (writeAt style depth e.2).length ≤ (memberText style depth e).length := by
  rw [memberText, List.length_append]
  omega

/-- Behind a colon the text goes on with the value. -/
theorem colon_append (style : Style) (s : Letters) :
    ∃ r, style.colon ++ s = .char ':' :: r ∧ skipSpace r = skipSpace s := by
  rw [Style.colon]
  cases style.indent with
  | none => exact ⟨s, rfl, rfl⟩
  | some n => exact ⟨.char ' ' :: s, rfl, rfl⟩

/-- The text of a member begins with a quotation mark. -/
theorem memberText_head (style : Style) (depth : Nat) (e : Letters × Value Letters) (s : Letters) :
    ∃ r, memberText style depth e ++ s = .char '"' :: r := by
  rw [memberText, List.append_assoc, List.append_assoc, writeString_append]
  exact ⟨_, rfl⟩

/-- The name of a member is read up to the value. -/
theorem readName_memberText {room : Nat} {e : Letters × Value Letters}
    (hname : hasSplitPair e.1 = false) (h : Within room e.2) (style : Style) (depth : Nat)
    (s : Letters) :
    readName (memberText style depth e ++ s) = .ok (e.1, writeAt style depth e.2 ++ s) := by
  obtain ⟨r, hr, hvalue⟩ := colon_append style (writeAt style depth e.2 ++ s)
  rw [h.skipSpace_writeAt] at hvalue
  rw [memberText, List.append_assoc, List.append_assoc, writeString_append, readName,
    readString_written _ hname, hr]
  simp only [skipSpace_cons (show isSpace ':' = false by decide), hvalue]

/-- **Members are read back.**  The members of an object are read up to the closing brace. -/
theorem readMembers_written {style : Style} {room : Nat} (depth : Nat) (rest : Letters)
    {e : Letters × Value Letters} {es : List (Letters × Value Letters)}
    (hnames : ∀ m ∈ e :: es, hasSplitPair m.1 = false)
    (h : ∀ m ∈ e :: es, Within room m.2 ∧ ReadsBack style room m.2) (fuel : Nat)
    (hfuel : (memberText style (depth + 1) e ++
      entryEnd style depth '\x7d' (writeEntries style (depth + 1) es) rest).length ≤
        fuel + rest.length) :
    readMembers fuel room (memberText style (depth + 1) e ++
      entryEnd style depth '\x7d' (writeEntries style (depth + 1) es) rest) =
        .ok (e :: es, rest) := by
  have hlt := lt_length_entryEnd style depth '\x7d' (writeEntries style (depth + 1) es) rest
  have hends := endsWord_entryEnd style depth '\x7d' (by decide)
    (writeEntries style (depth + 1) es) rest
  have hle := length_writeAt_le style (depth + 1) e
  rw [List.length_append] at hfuel
  -- There is fuel for this member, since its text and the mark behind it are not empty.
  obtain ⟨fuel, rfl⟩ : ∃ f, fuel = f + 1 := ⟨fuel - 1, by omega⟩
  have hv := (h e List.mem_cons_self).2 (depth + 1) fuel _ hends (by omega)
  rw [readMembers, readName_memberText (hnames e List.mem_cons_self) (h e List.mem_cons_self).1]
  simp only [hv]
  cases es with
  | nil =>
    simp only [writeEntries, entryEnd, List.flatMap_nil, List.nil_append, skipSpace_break,
      skipSpace_cons (show isSpace '\x7d' = false by decide)]
  | cons m ms =>
    rw [writeEntries_cons, entryEnd_cons, List.length_cons, List.length_append] at hfuel
    have hms := readMembers_written depth rest (fun u hu => hnames u (List.mem_cons_of_mem e hu))
      (fun u hu => h u (List.mem_cons_of_mem e hu)) fuel (by omega)
    obtain ⟨r, hr⟩ := memberText_head style (depth + 1) m
      (entryEnd style depth '\x7d' (writeEntries style (depth + 1) ms) rest)
    rw [hr] at hms
    rw [writeEntries_cons, entryEnd_cons, hr]
    simp only [skipSpace_cons (show isSpace ',' = false by decide), skipSpace_break,
      skipSpace_cons (show isSpace '"' = false by decide), hms]
termination_by es.length

/-! ### Values -/

/-- What begins with a quotation mark is a string. -/
theorem readValue_string (fuel room : Nat) (style : Style) {s : Letters}
    (h : hasSplitPair s = false) (rest : Letters) :
    readValue (fuel + 1) room (writeString style.asciiOnly s ++ rest) = .ok (.text s, rest) := by
  rw [writeString_append, readValue, readString_written _ h]

/-- What begins with neither a quotation mark nor a bracket is a word or a number. -/
theorem readValue_plain (fuel room : Nat) {c : Char} (hq : c ≠ '"') (hl : c ≠ '[')
    (ht : c ≠ '\x7b') (s : Letters) :
    readValue (fuel + 1) room (.char c :: s) = readPlain (.char c :: s) := by
  rw [readValue.eq_def]
  simp only
  split
  · next h => exact absurd (Letter.char.inj (List.cons.inj h).1) hq
  · next h => exact absurd (Letter.char.inj (List.cons.inj h).1) ht
  · next h => exact absurd (Letter.char.inj (List.cons.inj h).1) hl
  · next h => exact absurd (Letter.char.inj (List.cons.inj h).1) ht
  · next h => exact absurd (Letter.char.inj (List.cons.inj h).1) hl
  · rfl

/-- A word or a number is read up to where the text ends it. -/
theorem readValue_word (fuel room : Nat) {w : List Char} (hne : w ≠ [])
    (hw : ∀ c ∈ w, isWordChar c = true) {v : Value Letters} (h : readWord? w = some (.ok v, []))
    {rest : Letters} (hrest : EndsWord rest) :
    readValue (fuel + 1) room (letters w ++ rest) = .ok (v, rest) := by
  obtain ⟨c, s, rfl⟩ := List.exists_cons_of_ne_nil hne
  have hc (d : Char) (hd : isWordChar d = false) : c ≠ d := by
    rintro rfl
    exact absurd (hw c List.mem_cons_self) (by rw [hd]; decide)
  exact (readValue_plain fuel room (hc '"' (by decide)) (hc '[' (by decide))
    (hc '\x7b' (by decide)) _).trans (readPlain_append hw h hrest)

/-- A number is read up to its last digit. -/
theorem readValue_showInt (fuel room : Nat) {n : Int}
    (hn : (showNat n.natAbs).length ≤ maxDigits) {rest : Letters} (h : EndsWord rest) :
    readValue (fuel + 1) room (letters (showInt n) ++ rest) = .ok (.int n, rest) := by
  have hne : showInt n ≠ [] := by
    cases n with
    | ofNat n => exact showNat_ne_nil n
    | negSucc n => exact List.cons_ne_nil _ _
  exact readValue_word fuel room hne (fun _ => isWordChar_of_mem_showInt) (readWord?_showInt hn) h

/-- What begins with a bracket that the next token does not close is a list of items. -/
theorem readValue_items {fuel room : Nat} {s t rest : Letters} {items : List (Value Letters)}
    (hs : skipSpace s = t) (ht : ∀ r, t ≠ .char ']' :: r)
    (h : readItems fuel room t = .ok (items, rest)) :
    readValue (fuel + 1) (room + 1) (.char '[' :: s) = .ok (.list items, rest) := by
  rw [readValue, hs]
  split
  · next r => exact absurd rfl (ht r)
  · rw [h]

/-- What begins with a brace that the next token does not close is a table of members. -/
theorem readValue_members {fuel room : Nat} {s t rest : Letters}
    {members : List (Letters × Value Letters)} (hs : skipSpace s = t)
    (ht : ∀ r, t ≠ .char '\x7d' :: r)
    (h : readMembers fuel room t = .ok (members, rest)) :
    readValue (fuel + 1) (room + 1) (.char '\x7b' :: s) =
      .ok (.table (Table.ofList members), rest) := by
  rw [readValue, hs]
  split
  · next r => exact absurd rfl (ht r)
  · rw [h]

/-- A call for every character is at least one call. -/
theorem Within.exists_fuel (room : Nat) {v : Value Letters} (h : Within room v) {style : Style}
    {depth fuel : Nat} (hfuel : (writeAt style depth v).length ≤ fuel) : ∃ f, fuel = f + 1 :=
  Nat.exists_eq_add_one.2 (lt_of_lt_of_le (h.length_pos style depth) hfuel)

/-- A list is read back if its items are. -/
theorem readsBack_list {style : Style} {room : Nat} {items : List (Value Letters)}
    (h : ∀ v ∈ items, Within room v ∧ ReadsBack style room v) :
    ReadsBack style (room + 1) (.list items) := by
  intro depth fuel rest hrest hfuel
  obtain ⟨fuel, rfl⟩ := Within.exists_fuel _ (.list fun v hv => (h v hv).1) hfuel
  cases items with
  | nil => rfl
  | cons v vs =>
    have hv := (h v List.mem_cons_self).1
    have hlength := congrArg List.length (bracketed_cons style depth '[' ']'
      (writeAt style (depth + 1) v) (writeItems style (depth + 1) vs) rest)
    rw [List.length_append, List.length_cons, List.length_append] at hlength
    rw [writeAt, writeItems] at hfuel ⊢
    rw [bracketed_cons]
    have hitems := readItems_written depth rest h fuel (by omega)
    obtain ⟨c, s, hs, -, hc, -⟩ := hv.head style (depth + 1)
    refine readValue_items ((skipSpace_break style (depth + 1) _).trans
      (hv.skipSpace_writeAt style (depth + 1) _)) ?_ hitems
    -- The first item does not close the list.
    intro r hr
    rw [hs] at hr
    exact hc (Letter.char.inj (List.cons.inj hr).1)

/-- A table with distinct keys is read back if its values are. -/
theorem readsBack_table {style : Style} {room : Nat} {entries : List (Letters × Value Letters)}
    (hkeys : (entries.map (·.1)).Nodup) (hnames : ∀ e ∈ entries, hasSplitPair e.1 = false)
    (h : ∀ e ∈ entries, Within room e.2 ∧ ReadsBack style room e.2) :
    ReadsBack style (room + 1) (.table entries) := by
  intro depth fuel rest hrest hfuel
  obtain ⟨fuel, rfl⟩ := Within.exists_fuel _ (.table hkeys hnames fun e he => (h e he).1) hfuel
  cases entries with
  | nil => rfl
  | cons e es =>
    have hlength := congrArg List.length (bracketed_cons style depth '\x7b' '\x7d'
      (memberText style (depth + 1) e) (writeEntries style (depth + 1) es) rest)
    rw [List.length_append, List.length_cons, List.length_append] at hlength
    rw [writeAt, writeEntries_cons] at hfuel ⊢
    rw [bracketed_cons]
    have hmembers := readMembers_written depth rest hnames h fuel (by omega)
    -- The first name does not close the table.
    obtain ⟨r, hr⟩ := memberText_head style (depth + 1) e
      (entryEnd style depth '\x7d' (writeEntries style (depth + 1) es) rest)
    rw [hr] at hmembers ⊢
    have hspace : skipSpace (style.break (depth + 1) ++ .char '"' :: r) = .char '"' :: r := by
      rw [skipSpace_break, skipSpace_cons (by decide)]
    rw [readValue_members hspace (fun s hs => absurd (List.cons.inj hs).1 (by decide)) hmembers,
      Table.ofList_of_nodup hkeys]

/-- **Values are read back.**  The text of every value within the bounds of the reader is read as
    that value, in every style and at every depth. -/
theorem Within.readsBack {room : Nat} {v : Value Letters} (h : Within room v) (style : Style) :
    ReadsBack style room v := by
  -- By induction on what keeps the value within bounds: the entries of a value have one level less.
  induction h with
  | @null room =>
    intro depth fuel rest hrest hfuel
    obtain ⟨fuel, rfl⟩ := Within.exists_fuel room .null hfuel
    have hword : readWord? ['n', 'u', 'l', 'l'] = some (.ok .null, []) := by
      simp [readWord?, literals, dropStart?]
    exact readValue_word fuel room (by decide) (by simp [isWordChar]) hword hrest
  | @bool room b =>
    intro depth fuel rest hrest hfuel
    obtain ⟨fuel, rfl⟩ := Within.exists_fuel room (.bool b) hfuel
    cases b with
    | false =>
      have hword : readWord? ['f', 'a', 'l', 's', 'e'] = some (.ok (.bool false), []) := by
        simp [readWord?, literals, dropStart?]
      exact readValue_word fuel room (by decide) (by simp [isWordChar]) hword hrest
    | true =>
      have hword : readWord? ['t', 'r', 'u', 'e'] = some (.ok (.bool true), []) := by
        simp [readWord?, literals, dropStart?]
      exact readValue_word fuel room (by decide) (by simp [isWordChar]) hword hrest
  | @int room n hn =>
    intro depth fuel rest hrest hfuel
    obtain ⟨fuel, rfl⟩ := Within.exists_fuel room (.int hn) hfuel
    exact readValue_showInt fuel room hn hrest
  | @text room s hs =>
    intro depth fuel rest hrest hfuel
    obtain ⟨fuel, rfl⟩ := Within.exists_fuel room (.text hs) hfuel
    exact readValue_string fuel room style hs rest
  | list hitems ih => exact readsBack_list fun v hv => ⟨hitems v hv, ih v hv⟩
  | table hkeys hnames hentries ih =>
    exact readsBack_table hkeys hnames fun e he => ⟨hentries e he, ih e he⟩

/-! ### Whole texts -/

/-- White space ends a word. -/
theorem endsWord_of_isSpace {s : Letters} (h : ∀ c ∈ s, c.isChar isSpace = true) : EndsWord s := by
  cases s with
  | nil => exact endsWord_nil
  | cons c s =>
    have hc := h c List.mem_cons_self
    cases c with
    | surrogate n => cases hc
    | char c =>
      simp only [Letter.isChar, isSpace, Bool.or_eq_true, beq_iff_eq] at hc
      rcases hc with ((rfl | rfl) | rfl) | rfl <;> exact endsWord_cons (by decide)

/-- **Texts are read back.**  A value within the bounds of the reader is the value of its text, with
    or without white space behind it. -/
theorem parse_write {v : Value Letters} (h : Within maxNesting v) (style : Style) {space : Letters}
    (hspace : ∀ c ∈ space, c.isChar isSpace = true) :
    parse (write style v ++ space) = .ok v := by
  rw [write]
  obtain ⟨c, s, hs, hc, -, hmark⟩ := h.head style 0
  have hhead : (writeAt style 0 v ++ space).head? ≠ some (.char '\ufeff') := by
    rw [hs, List.cons_append, List.head?_cons, ne_eq, Option.some.injEq]
    exact fun hfirst => hmark (Letter.char.inj hfirst)
  have hread := h.readsBack style 0 (2 * (writeAt style 0 v ++ space).length + 2) space
    (endsWord_of_isSpace hspace) (by rw [List.length_append]; omega)
  have hend : skipSpace space = [] := by
    rw [skipSpace, List.dropWhile_eq_nil_iff]
    exact hspace
  rw [parse, if_neg hhead, h.skipSpace_writeAt, hread]
  simp only [hend]

end LineCensus.Json
