import LineCensus.Proofs.Json.RoundTrip

namespace LineCensus.Json

open Text

/-!
# Different values have different texts

The reader takes no number of too many digits and no value of too many levels, so reading back says
nothing about those.  Here a text tells its value by itself, whatever the size.

* `Plain` — a value of whole numbers, strings, truth values, lists and tables.
* `showInt_cancel`, `writeString_cancel` — where a number and where a string ends.
* `Tells` — in front of anything that cannot belong to it, the text of a thing tells the thing and
  where its text ends.
* `bracketed_cancel` — the entries of a list and of a table.
* `Plain.tells` — every value.
* `write_injective` — a whole text.
-/

/-- A value without fractions, dates and pairs of surrogates. -/
inductive Plain : Value Letters → Prop where
  | null : Plain .null
  | bool (b : Bool) : Plain (.bool b)
  | int (n : Int) : Plain (.int n)
  | text {s : Letters} (h : hasSplitPair s = false) : Plain (.text s)
  | list {items : List (Value Letters)} (h : ∀ v ∈ items, Plain v) : Plain (.list items)
  | table {entries : List (Letters × Value Letters)}
      (hnames : ∀ e ∈ entries, hasSplitPair e.1 = false) (h : ∀ e ∈ entries, Plain e.2) :
      Plain (.table entries)

/-! ### Numbers and strings -/

/-- The digits of a number tell it. -/
theorem showInt_injective {m n : Int} (h : showInt m = showInt n) : m = n := by
  -- A number that is not negative begins with a digit, which the sign is not.
  have hsign (k l : Nat) : showNat k ≠ '-' :: showNat l := by
    obtain ⟨c, t, ht, hc⟩ := showNat_eq_cons k
    rw [ht]
    intro heq
    exact ne_of_isDigit hc (by decide) (List.cons.inj heq).1
  have hdigits {k l : Nat} (hkl : showNat k = showNat l) : k = l := by
    rw [← readDigits_showNat k, hkl, readDigits_showNat]
  cases m with
  | ofNat m =>
    cases n with
    | ofNat n => exact congrArg Int.ofNat (hdigits h)
    | negSucc n => exact absurd h (hsign m (n + 1))
  | negSucc m =>
    cases n with
    | ofNat n => exact absurd h.symm (hsign n (m + 1))
    | negSucc n => exact congrArg Int.negSucc (Nat.succ.inj (hdigits (List.cons.inj h).2))

/-- No number begins with the digits of another one. -/
theorem showInt_cancel {m n : Int} {r s : Letters} (hr : EndsWord r) (hs : EndsWord s)
    (h : letters (showInt m) ++ r = letters (showInt n) ++ s) : m = n ∧ r = s := by
  have hword : showInt m = showInt n := by
    rw [← wordFront_append (fun _ => isWordChar_of_mem_showInt) hr, h,
      wordFront_append (fun _ => isWordChar_of_mem_showInt) hs]
  exact ⟨showInt_injective hword, List.append_cancel_left (hword ▸ h)⟩

/-- No string begins with another one: the reader takes either up to its closing mark. -/
theorem writeString_cancel {ascii : Bool} {a b r s : Letters} (ha : hasSplitPair a = false)
    (hb : hasSplitPair b = false) (h : writeString ascii a ++ r = writeString ascii b ++ s) :
    a = b ∧ r = s := by
  rw [writeString_append, writeString_append] at h
  have hread := congrArg (readString []) (List.cons.inj h).2
  rw [readString_written _ ha, readString_written _ hb] at hread
  rw [Except.ok.injEq, Prod.mk.injEq] at hread
  exact hread

/-! ### Entries -/

section Entries

variable {α : Type} {text : α → Letters} {P : α → Prop} {style : Style} {depth : Nat}
  {opening closing : Char}

/-- In front of texts that cannot belong to it, the text of `x` is that of nothing else with the
    property, and it is known where it ends. -/
def Tells (text : α → Letters) (P : α → Prop) (x : α) : Prop :=
  ∀ y, P y → ∀ r s, EndsWord r → EndsWord s → text x ++ r = text y ++ s → x = y ∧ r = s

variable (hclosing : closing = ']' ∨ closing = '\x7d')
include hclosing

/-- No word goes on behind an entry. -/
theorem endsWord_closing (es : List Letters) (rest : Letters) :
    EndsWord (entryEnd style depth closing es rest) := by
  apply endsWord_entryEnd
  rcases hclosing with rfl | rfl <;> decide

/-- Behind the last entry there is no comma. -/
theorem entryEnd_cons_ne_nil (e : Letters) (es : List Letters) (r s : Letters) :
    entryEnd style depth closing (e :: es) r ≠ entryEnd style depth closing [] s := by
  have hnil : entryEnd style depth closing [] s = style.break depth ++ .char closing :: s := rfl
  rw [entryEnd_cons, hnil]
  intro heq
  cases hindent : style.indent with
  | none =>
    rw [Style.break, Style.break, hindent] at heq
    have hcomma : ',' = closing := Letter.char.inj (List.cons.inj heq).1
    rcases hclosing with rfl | rfl <;> exact absurd hcomma (by decide)
  | some n =>
    rw [Style.break, Style.break, hindent] at heq
    have hcomma : ',' = '\n' := Letter.char.inj (List.cons.inj heq).1
    exact absurd hcomma (by decide)

/-- The first entry and the ones behind it are told, and where the last of them ends. -/
theorem entries_cancel {x y : α} {xs ys : List α} {r s : Letters}
    (hx : ∀ z ∈ x :: xs, Tells text P z) (hy : ∀ z ∈ y :: ys, P z)
    (h : text x ++ entryEnd style depth closing (xs.map text) r =
      text y ++ entryEnd style depth closing (ys.map text) s) : x :: xs = y :: ys ∧ r = s := by
  -- Behind an entry comes a comma or the closing mark, so both lists end at the same place.
  induction xs generalizing x y ys with
  | nil =>
    obtain ⟨rfl, hrest⟩ := hx x List.mem_cons_self y (hy y List.mem_cons_self) _ _
      (endsWord_closing hclosing _ r) (endsWord_closing hclosing _ s) h
    cases ys with
    | nil =>
      rw [entryEnd, entryEnd] at hrest
      have hend := List.append_cancel_left (List.append_cancel_left hrest)
      exact ⟨rfl, (List.cons.inj hend).2⟩
    | cons w ws => exact absurd hrest.symm (entryEnd_cons_ne_nil hclosing _ _ s r)
  | cons z zs ih =>
    obtain ⟨rfl, hrest⟩ := hx x List.mem_cons_self y (hy y List.mem_cons_self) _ _
      (endsWord_closing hclosing _ r) (endsWord_closing hclosing _ s) h
    cases ys with
    | nil => exact absurd hrest (entryEnd_cons_ne_nil hclosing _ _ r s)
    | cons w ws =>
      rw [List.map_cons, List.map_cons, entryEnd_cons, entryEnd_cons] at hrest
      have hnext := List.append_cancel_left (List.cons.inj hrest).2
      obtain ⟨htail, hend⟩ := ih (fun u hu => hx u (List.mem_cons_of_mem x hu))
        (fun u hu => hy u (List.mem_cons_of_mem x hu)) hnext
      exact ⟨congrArg (x :: ·) htail, hend⟩

/-- Brackets without entries are not brackets with a first entry that does not close them. -/
theorem bracketed_cons_ne_nil {e : Letters} (he : ∃ c t, e = .char c :: t ∧ c ≠ closing)
    (es : List Letters) (r s : Letters) :
    bracketed style depth opening closing (e :: es) ++ r ≠
      bracketed style depth opening closing [] ++ s := by
  obtain ⟨c, t, rfl, hc⟩ := he
  rw [bracketed_cons, Style.break]
  intro heq
  have htail := (List.cons.inj heq).2
  cases hindent : style.indent with
  | none =>
    rw [hindent] at htail
    exact hc (Letter.char.inj (List.cons.inj htail).1)
  | some n =>
    rw [hindent] at htail
    have hbreak : '\n' = closing := Letter.char.inj (List.cons.inj htail).1
    rcases hclosing with rfl | rfl <;> exact absurd hbreak (by decide)

/-- **Entries.**  What stands between brackets tells the entries and where the brackets close, if
    no entry begins with the closing bracket. -/
theorem bracketed_cancel {xs ys : List α} {r s : Letters}
    (hhead : ∀ x, P x → ∃ c t, text x = .char c :: t ∧ c ≠ closing)
    (hxs : ∀ x ∈ xs, P x) (hys : ∀ y ∈ ys, P y) (htells : ∀ x ∈ xs, Tells text P x)
    (h : bracketed style depth opening closing (xs.map text) ++ r =
      bracketed style depth opening closing (ys.map text) ++ s) : xs = ys ∧ r = s := by
  cases xs with
  | nil =>
    cases ys with
    | nil => exact ⟨rfl, List.append_cancel_left h⟩
    | cons y ys =>
      have hy := hhead y (hys y List.mem_cons_self)
      exact absurd h.symm (bracketed_cons_ne_nil hclosing hy (ys.map text) s r)
  | cons x xs =>
    cases ys with
    | nil =>
      have hx := hhead x (hxs x List.mem_cons_self)
      exact absurd h (bracketed_cons_ne_nil hclosing hx (xs.map text) r s)
    | cons y ys =>
      rw [List.map_cons, List.map_cons, bracketed_cons, bracketed_cons] at h
      exact entries_cancel hclosing htells hys (List.append_cancel_left (List.cons.inj h).2)

end Entries

/-- The texts of items are those of each. -/
theorem writeItems_eq_map (style : Style) (depth : Nat) (items : List (Value Letters)) :
    writeItems style depth items = items.map (writeAt style depth) := by
  induction items with
  | nil => rfl
  | cons v vs ih => rw [writeItems, ih, List.map_cons]

/-- The texts of entries are those of each. -/
theorem writeEntries_eq_map (style : Style) (depth : Nat)
    (entries : List (Letters × Value Letters)) :
    writeEntries style depth entries = entries.map (memberText style depth) := by
  induction entries with
  | nil => rfl
  | cons e es ih => rw [writeEntries_cons, ih, List.map_cons]

/-- A member tells its name, and then its value. -/
theorem tells_memberText {style : Style} {depth : Nat} {e : Letters × Value Letters}
    (hname : hasSplitPair e.1 = false) (h : Tells (writeAt style depth) Plain e.2) :
    Tells (memberText style depth) (fun e => hasSplitPair e.1 = false ∧ Plain e.2) e := by
  intro f hf r s hr hs heq
  simp only [memberText, List.append_assoc] at heq
  obtain ⟨hsame, hcolon⟩ := writeString_cancel hname hf.1 heq
  obtain ⟨hvalue, hrest⟩ := h f.2 hf.2 r s hr hs (List.append_cancel_left hcolon)
  exact ⟨Prod.ext hsame hvalue, hrest⟩

/-! ### Values -/

/-- What kind of value begins with a character. -/
def kindOf (c : Char) : Nat :=
  if c = 'n' then 0 else if c = 't' ∨ c = 'f' then 1 else if c = '"' then 2 else if c = '[' then 3
  else if c = '\x7b' then 4 else 5

/-- The number of the kind of a value. -/
def kind : Value Letters → Nat
  | .null | .calendar => 0
  | .bool _ => 1
  | .text _ => 2
  | .list _ => 3
  | .table _ => 4
  | .int _ | .float _ => 5

/-- A digit begins a number. -/
theorem kindOf_of_isDigit {c : Char} (h : isDigit c = true) : kindOf c = 5 := by
  have hne (d : Char) (hd : isDigit d = false) : c ≠ d := ne_of_isDigit h hd
  rw [kindOf, if_neg (hne 'n' (by decide)), if_neg (not_or.2 ⟨hne 't' (by decide),
    hne 'f' (by decide)⟩), if_neg (hne '"' (by decide)), if_neg (hne '[' (by decide)),
    if_neg (hne '\x7b' (by decide))]

/-- A text begins with a character of its kind, which does not close a list. -/
theorem Plain.head {v : Value Letters} (h : Plain v) (style : Style) (depth : Nat) :
    ∃ c s, writeAt style depth v = .char c :: s ∧ c ≠ ']' ∧ kindOf c = kind v := by
  cases h with
  | null => exact ⟨'n', _, rfl, by decide, by decide⟩
  | bool b =>
    cases b with
    | false => exact ⟨'f', _, rfl, by decide, rfl⟩
    | true => exact ⟨'t', _, rfl, by decide, rfl⟩
  | int n =>
    cases n with
    | ofNat n =>
      obtain ⟨c, s, hs, hc⟩ := showNat_eq_cons n
      exact ⟨c, letters s, congrArg letters hs, ne_of_isDigit hc (by decide), kindOf_of_isDigit hc⟩
    | negSucc n => exact ⟨'-', _, rfl, by decide, rfl⟩
  | text hs => exact ⟨'"', _, rfl, by decide, rfl⟩
  | @list items h => cases items <;> exact ⟨'[', _, rfl, by decide, rfl⟩
  | @table entries hnames h => cases entries <;> exact ⟨'\x7b', _, rfl, by decide, rfl⟩

/-- Texts that go on to the same are of values of one kind. -/
theorem Plain.kind_eq {v w : Value Letters} (hv : Plain v) (hw : Plain w) {style : Style}
    {depth : Nat} {r s : Letters} (h : writeAt style depth v ++ r = writeAt style depth w ++ s) :
    kind v = kind w := by
  obtain ⟨c, t, hc, -, hkind⟩ := hv.head style depth
  obtain ⟨d, u, hd, -, hkind'⟩ := hw.head style depth
  rw [hc, hd] at h
  rw [← hkind, ← hkind', Letter.char.inj (List.cons.inj h).1]

/-- **Values are told.**  At any depth, and in front of any text that cannot belong to it, the text
    of a plain value is that of no other one, and it is known where it ends. -/
theorem Plain.tells {v : Value Letters} (h : Plain v) (style : Style) (depth : Nat) :
    Tells (writeAt style depth) Plain v := by
  -- By induction on the value; another value of the same kind has the same form.
  induction h generalizing depth with
  | null =>
    intro w hw r s hr hs heq
    have hkind := Plain.null.kind_eq hw heq
    cases hw with
    | null => exact ⟨rfl, List.append_cancel_left heq⟩
    | _ => cases hkind
  | bool b =>
    intro w hw r s hr hs heq
    have hkind := (Plain.bool b).kind_eq hw heq
    cases hw with
    | bool c =>
      -- The two truth values begin with different letters.
      cases b <;> cases c
      · exact ⟨rfl, List.append_cancel_left heq⟩
      · exact absurd (List.cons.inj heq).1 (by decide)
      · exact absurd (List.cons.inj heq).1 (by decide)
      · exact ⟨rfl, List.append_cancel_left heq⟩
    | _ => cases hkind
  | int n =>
    intro w hw r s hr hs heq
    have hkind := (Plain.int n).kind_eq hw heq
    cases hw with
    | int m =>
      obtain ⟨rfl, hrest⟩ := showInt_cancel hr hs heq
      exact ⟨rfl, hrest⟩
    | _ => cases hkind
  | text ha =>
    intro w hw r s hr hs heq
    have hkind := (Plain.text ha).kind_eq hw heq
    cases hw with
    | text hb =>
      obtain ⟨rfl, hrest⟩ := writeString_cancel ha hb heq
      exact ⟨rfl, hrest⟩
    | _ => cases hkind
  | @list items hitems ih =>
    intro w hw r s hr hs heq
    have hkind := (Plain.list hitems).kind_eq hw heq
    cases hw with
    | list hitems' =>
      rw [writeAt, writeAt, writeItems_eq_map, writeItems_eq_map] at heq
      obtain ⟨rfl, hrest⟩ := bracketed_cancel (.inl rfl)
        (fun v hv => (hv.head style (depth + 1)).imp fun c => .imp fun t ht => ⟨ht.1, ht.2.1⟩)
        hitems hitems' (fun v hv => ih v hv (depth + 1)) heq
      exact ⟨rfl, hrest⟩
    | _ => cases hkind
  | @table entries hnames hentries ih =>
    intro w hw r s hr hs heq
    have hkind := (Plain.table hnames hentries).kind_eq hw heq
    cases hw with
    | table hnames' hentries' =>
      rw [writeAt, writeAt, writeEntries_eq_map, writeEntries_eq_map] at heq
      obtain ⟨rfl, hrest⟩ :=
        bracketed_cancel (P := fun e => hasSplitPair e.1 = false ∧ Plain e.2) (.inr rfl)
          (fun e _ => ⟨'"', _, rfl, by decide⟩) (fun e he => ⟨hnames e he, hentries e he⟩)
          (fun e he => ⟨hnames' e he, hentries' e he⟩)
          (fun e he => tells_memberText (hnames e he) (ih e he (depth + 1))) heq
      exact ⟨rfl, hrest⟩
    | _ => cases hkind

/-- **Different values have different texts**, in every style. -/
theorem write_injective {v w : Value Letters} (hv : Plain v) (hw : Plain w) {style : Style}
    (h : write style v = write style w) : v = w := by
  rw [write, write] at h
  have htells := hv.tells style 0 w hw [] [] endsWord_nil endsWord_nil
  exact (htells (by rw [h])).1

end LineCensus.Json
