import LineCensus.Csv

namespace LineCensus.Csv

open Text

/-!
# Carriage returns that stop a reader

* `Place` — where a place in a text is with regard to quotes, whatever fields and rows there are.
* `BareReturn` — a carriage return outside of quotes with a character behind it that is no part of a
  line end.
* `placeOf_feed`, `placeOf_endLine` — the reader knows at which place it is.
* `stray_run`, `stray_read_iff` — it stops at such a return and at nothing else.
-/

/-- Where a place in a text is: where a field may begin, in a field without quotes, in a quoted one,
    or behind a quotation mark in a quoted one. -/
inductive Place where
  | fresh
  | bare
  | quoted
  | closed
  deriving DecidableEq

/-- The place behind one more character.  A quotation mark opens a field where one may begin, and
    goes on with a quoted field behind another one. -/
def Place.next (p : Place) (c : Letter) : Place :=
  if p = .quoted then if c = '"' then .closed else .quoted
  else if c = ',' ∨ Reader.isLineEnd c then .fresh
  else if c = '"' ∧ p ≠ .bare then .quoted
  else .bare

/-- From the place on there is a carriage return outside of quotes, and behind it a character that
    is no part of a line end. -/
def BareReturnFrom (p : Place) (text : Letters) : Prop :=
  ∃ front c rest, text = front ++ .char '\r' :: c :: rest ∧ front.foldl Place.next p ≠ .quoted ∧
    Reader.isLineEnd c = false

/-- A carriage return stands between two characters that belong to no quoted field. -/
def BareReturn (text : Letters) : Prop := BareReturnFrom .fresh text

/-- An empty text has no such return. -/
theorem bareReturnFrom_nil (p : Place) : ¬BareReturnFrom p [] := by
  rintro ⟨front, c, rest, heq, -⟩
  exact List.append_ne_nil_of_right_ne_nil front (List.cons_ne_nil _ _) heq.symm

/-- Such a return is the first character, or there is one from the place behind it on. -/
theorem bareReturnFrom_cons {p : Place} {c : Letter} {s : Letters} :
    BareReturnFrom p (c :: s) ↔
      (c = '\r' ∧ p ≠ .quoted ∧ ∃ d t, s = d :: t ∧ Reader.isLineEnd d = false) ∨
        BareReturnFrom (p.next c) s := by
  constructor
  · rintro ⟨front, d, rest, heq, hp, hd⟩
    cases front with
    | nil =>
      obtain ⟨rfl, rfl⟩ := List.cons.inj heq
      exact .inl ⟨rfl, hp, d, rest, rfl, hd⟩
    | cons e front =>
      obtain ⟨rfl, rfl⟩ := List.cons.inj heq
      exact .inr ⟨front, d, rest, rfl, hp, hd⟩
  · rintro (⟨rfl, hp, d, t, rfl, hd⟩ | ⟨front, d, rest, rfl, hp, hd⟩)
    · exact ⟨[], d, t, rfl, hp, hd⟩
    · exact ⟨c :: front, d, rest, rfl, hp, hd⟩

namespace Reader

/-! ### Modes and places -/

/-- The place at which a reader is. -/
def placeOf : Mode → Place
  | .rowStart | .fieldStart | .lineEnd => .fresh
  | .bare => .bare
  | .quoted => .quoted
  | .afterQuote => .closed

/-- Only a reader of a quoted field is in one. -/
theorem placeOf_eq_quoted {m : Mode} : placeOf m = .quoted ↔ m = .quoted := by
  cases m <;> simp [placeOf]

/-- What a character is to the reader: part of a line end, a mark, or nothing of these. -/
theorem kinds (c : Letter) :
    (isLineEnd c = true ∧ c ≠ ',' ∧ c ≠ '"') ∨ c = '"' ∨ c = ',' ∨
      (isLineEnd c = false ∧ c ≠ ',' ∧ c ≠ '"') := by
  by_cases hq : c = '"'
  · exact .inr (.inl hq)
  by_cases hc : c = ','
  · exact .inr (.inr (.inl hc))
  cases hl : isLineEnd c with
  | true => exact .inl ⟨rfl, hc, hq⟩
  | false => exact .inr (.inr (.inr ⟨rfl, hc, hq⟩))

@[simp] theorem isLineEnd_comma : isLineEnd ',' = false := rfl

@[simp] theorem isLineEnd_quotationMark : isLineEnd '"' = false := rfl

variable {r : Reader} {c : Letter}

/-- Only a character that begins something new stops the reader, and only behind a line end. -/
theorem stray_feed (h : r.stray = false) :
    (r.feed c).stray = true ↔ r.mode = .lineEnd ∧ isLineEnd c = false := by
  obtain ⟨mode, field, fields, rows, stray⟩ := r
  cases h
  rcases kinds c with ⟨hl, hc, hq⟩ | rfl | rfl | ⟨hl, hc, hq⟩ <;> cases mode <;>
    simp_all [feed, begin, endField, take]

/-- **One character.**  The reader goes to the next place, unless it stops. -/
theorem placeOf_feed (h : (r.feed c).stray = false) :
    placeOf (r.feed c).mode = (placeOf r.mode).next c := by
  obtain ⟨mode, field, fields, rows, stray⟩ := r
  rcases kinds c with ⟨hl, hc, hq⟩ | rfl | rfl | ⟨hl, hc, hq⟩ <;> cases mode <;>
    simp_all [feed, begin, endField, take, placeOf, Place.next]

/-- Behind a line end is the reader that has read one outside of quotes. -/
theorem mode_feed_eq_lineEnd_iff (h : (r.feed c).stray = false) :
    (r.feed c).mode = .lineEnd ↔ isLineEnd c = true ∧ r.mode ≠ .quoted := by
  obtain ⟨mode, field, fields, rows, stray⟩ := r
  rcases kinds c with ⟨hl, hc, hq⟩ | rfl | rfl | ⟨hl, hc, hq⟩ <;> cases mode <;>
    simp_all [feed, begin, endField, take]

/-- The end of a line outside of quotes is where a row may begin. -/
theorem mode_endLine : r.endLine.mode = if r.mode = .quoted then .quoted else .rowStart := by
  obtain ⟨mode, field, fields, rows, stray⟩ := r
  cases mode <;> rfl

/-- The end of a line does not stop the reader. -/
theorem stray_endLine : r.endLine.stray = r.stray := by
  obtain ⟨mode, field, fields, rows, stray⟩ := r
  cases mode <;> rfl

/-! ### Texts -/

/-- At the end of a text the reader ends its row, and does not stop before. -/
theorem stray_run_nil (r : Reader) (fresh : Bool) : (r.run fresh []).stray = r.stray := by
  rw [run]
  cases fresh with
  | true =>
    show (if r.mode = .quoted then _ else r : Reader).stray = _
    split <;> rfl
  | false =>
    show (if r.endLine.mode = .quoted then _ else r.endLine : Reader).stray = _
    split <;> exact stray_endLine

/-- A line feed ends the line, and the place is that behind the line feed. -/
theorem placeOf_endLine_feed (h : (r.feed '\n').stray = false) :
    placeOf (r.feed '\n').endLine.mode = (placeOf r.mode).next '\n' := by
  rw [← placeOf_feed h, mode_endLine]
  have hline := mode_feed_eq_lineEnd_iff h
  by_cases hq : (r.feed '\n').mode = .quoted
  · rw [if_pos hq, hq]
  · have hmode : (r.feed '\n').mode = .lineEnd := by
      refine hline.2 ⟨rfl, fun hr => hq ?_⟩
      rw [feed, hr]
      rfl
    rw [if_neg hq, hmode]
    rfl

/-- **Whole texts.**  What stops the reader is a return outside of quotes with something behind it,
    or something behind a line end that it has read already. -/
theorem stray_run (h : r.stray = false) (fresh : Bool) (s : Letters) :
    (r.run fresh s).stray = true ↔
      (r.mode = .lineEnd ∧ ∃ d t, s = d :: t ∧ isLineEnd d = false) ∨
        BareReturnFrom (placeOf r.mode) s := by
  -- By induction on the text; the mode of the reader tells what the text before it was.
  induction s generalizing r fresh with
  | nil => simp [stray_run_nil, h, bareReturnFrom_nil]
  | cons c s ih =>
    rw [run]
    by_cases hc : (r.feed c).stray = true
    · obtain ⟨hmode, hend⟩ := (stray_feed h).1 hc
      rw [if_pos hc]
      exact iff_of_true hc (.inl ⟨hmode, c, s, rfl, hend⟩)
    have hgo : (r.feed c).stray = false := Bool.eq_false_iff.2 hc
    have hfirst : ¬(r.mode = .lineEnd ∧ ∃ d t, c :: s = d :: t ∧ isLineEnd d = false) := by
      rintro ⟨hmode, d, t, heq, hd⟩
      obtain ⟨rfl, rfl⟩ := List.cons.inj heq
      exact hc ((stray_feed h).2 ⟨hmode, hd⟩)
    rw [if_neg hc, or_iff_right hfirst, bareReturnFrom_cons]
    by_cases hn : c = '\n'
    · subst hn
      rw [if_pos rfl, ih (stray_endLine.trans hgo), placeOf_endLine_feed hgo, mode_endLine]
      -- A row begins, so no line end is open.
      have hmode :
          (if (r.feed '\n').mode = .quoted then Mode.quoted else .rowStart) ≠ .lineEnd := by
        split <;> decide
      rw [or_iff_right fun hline => hmode hline.1, or_iff_right fun hr => absurd hr.1 (by decide)]
    · have hreturn : isLineEnd c = true ↔ c = '\r' := by
        simp [isLineEnd, hn]
      rw [if_neg hn, ih hgo, placeOf_feed hgo, mode_feed_eq_lineEnd_iff hgo, hreturn, and_assoc,
        ne_eq, ne_eq, placeOf_eq_quoted]

/-- **Stray returns.**  The reader stops at a carriage return exactly if the text has one between
    two characters that belong to no quoted field. -/
theorem stray_read_iff {text : Letters} : (read text).2 = true ↔ BareReturn text := by
  rw [read, stray_run rfl]
  exact or_iff_right fun h => absurd h.1 (by decide)

end Reader

end LineCensus.Csv
