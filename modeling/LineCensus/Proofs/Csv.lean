import LineCensus.Csv

namespace LineCensus.Csv

open Text

/-!
# Rows read back

The reader goes through a text one character at a time, so what it makes of a written field is told
by the state in which it stands behind that field:

* `Reader.holding` — a reader that has read the characters of a field but not what ends it.
* `run_doubled`, `run_bare`, `run_writeField` — the way there, for fields with and without quotes.
* `run_comma`, `run_lineFeed` — what ends a field then is a comma or a line feed.
* `run_writeFields`, `run_rows` — the fields of a row, and rows.
* `read_write` — rows without carriage returns are read back, if none of them is blank.
-/

namespace Reader

variable {fields : Row} {rows : List Row}

/-- A reader at a place where a field may begin. -/
abbrev Begins (mode : Mode) : Prop := mode = .rowStart ∨ mode = .fieldStart

/-- A reader that began in the given mode and has read all characters of a field.  One that has no
    quotes and no characters leaves no trace. -/
def holding (mode : Mode) (field : Letters) (fields : Row) (rows : List Row) : Reader :=
  if needsQuotes field then ⟨.afterQuote, field.reverse, fields, rows, false⟩
  else if field.isEmpty then ⟨mode, [], fields, rows, false⟩
  else ⟨.bare, field.reverse, fields, rows, false⟩

/-! ### Single characters -/

/-- It matters only at the end of a text whether a character of the line has come. -/
theorem run_fresh (r : Reader) (a b : Bool) (c : Letter) (s : Letters) :
    r.run a (c :: s) = r.run b (c :: s) := rfl

theorem run_cons {r : Reader} {c : Letter} (hc : c ≠ '\n') (h : (r.feed c).stray = false)
    (fresh : Bool) (s : Letters) : r.run fresh (c :: s) = (r.feed c).run false s := by
  rw [run]
  simp only [h, hc, Bool.false_eq_true, if_false]

theorem run_lineFeed_cons {r : Reader} (h : (r.feed '\n').stray = false) (fresh : Bool)
    (s : Letters) : r.run fresh (.char '\n' :: s) = (r.feed '\n').endLine.run true s := by
  rw [run]
  simp only [h, Bool.false_eq_true, if_false, if_true]

/-- Any character but a quotation mark goes into a quoted field, and a line feed does not end it. -/
theorem run_quoted_cons {c : Letter} (hc : c ≠ '"') (field : Letters) (fresh : Bool)
    (s : Letters) : ∃ fresh', run ⟨.quoted, field, fields, rows, false⟩ fresh (c :: s) =
      run ⟨.quoted, c :: field, fields, rows, false⟩ fresh' s := by
  have hfeed : feed ⟨.quoted, field, fields, rows, false⟩ c =
      ⟨.quoted, c :: field, fields, rows, false⟩ := by
    simp only [feed, hc, if_false, take]
  by_cases hn : c = '\n'
  · subst hn
    refine ⟨true, ?_⟩
    rw [run_lineFeed_cons (by rw [hfeed]), hfeed]
    rfl
  · exact ⟨false, by rw [run_cons hn (by rw [hfeed]), hfeed]⟩

/-! ### Fields -/

/-- **Quoted fields.**  Up to the closing mark the characters of a field are read, two marks as
    one. -/
theorem run_doubled (f field : Letters) (fresh : Bool) (c : Letter) (s : Letters) :
    run ⟨.quoted, field, fields, rows, false⟩ fresh (f.flatMap doubled ++ .char '"' :: c :: s) =
      run ⟨.afterQuote, f.reverse ++ field, fields, rows, false⟩ false (c :: s) := by
  -- By induction on what is left of the field; the characters read so far are the state.
  induction f generalizing field fresh with
  | nil =>
    rw [List.flatMap_nil, List.nil_append, run_cons (by decide) rfl]
    rfl
  | cons d f ih =>
    have hreverse : (d :: f).reverse ++ field = f.reverse ++ d :: field := by
      rw [List.reverse_cons, List.append_assoc, List.singleton_append]
    rw [List.flatMap_cons, hreverse]
    by_cases hd : d = '"'
    · subst hd
      rw [doubled, if_pos rfl]
      show run _ fresh (.char '"' :: .char '"' :: (f.flatMap doubled ++ .char '"' :: c :: s)) = _
      rw [run_cons (by decide) rfl, run_cons (by decide) rfl]
      exact ih (.char '"' :: field) false
    · rw [doubled, if_neg hd]
      show run _ fresh (d :: (f.flatMap doubled ++ .char '"' :: c :: s)) = _
      obtain ⟨fresh', hrun⟩ :=
        run_quoted_cons hd field fresh (f.flatMap doubled ++ .char '"' :: c :: s)
      rw [hrun]
      exact ih (d :: field) fresh'

/-- A character that has no meaning of its own. -/
def IsPlain (c : Letter) : Prop := c ≠ ',' ∧ c ≠ '"' ∧ c ≠ '\n' ∧ c ≠ '\r'

theorem isPlain_of_needsQuotes {f : Letters} (hq : needsQuotes f = false)
    (hr : Letter.char '\r' ∉ f) :
    ∀ c ∈ f, IsPlain c := by
  intro c hc
  rw [needsQuotes, List.any_eq_false] at hq
  have h := hq c hc
  simp only [Bool.or_eq_true, beq_iff_eq, not_or] at h
  refine ⟨h.1.1, h.1.2, h.2, ?_⟩
  rintro rfl
  exact hr hc

theorem isLineEnd_of_isPlain {c : Letter} (h : IsPlain c) : isLineEnd c = false := by
  simp only [isLineEnd, Bool.or_eq_false_iff, beq_eq_false_iff_ne]
  exact ⟨h.2.2.1, h.2.2.2⟩

/-- **Fields without quotes.**  Their characters are read as they are. -/
theorem run_bare {f : Letters} (hf : ∀ c ∈ f, IsPlain c) (field : Letters) (fresh : Bool)
    (c : Letter) (s : Letters) :
    run ⟨.bare, field, fields, rows, false⟩ fresh (f ++ c :: s) =
      run ⟨.bare, f.reverse ++ field, fields, rows, false⟩ false (c :: s) := by
  induction f generalizing field fresh with
  | nil => rfl
  | cons d f ih =>
    have hd := hf d List.mem_cons_self
    have hreverse : (d :: f).reverse ++ field = f.reverse ++ d :: field := by
      rw [List.reverse_cons, List.append_assoc, List.singleton_append]
    have hfeed : feed ⟨.bare, field, fields, rows, false⟩ d =
        ⟨.bare, d :: field, fields, rows, false⟩ := by
      simp only [feed, isLineEnd_of_isPlain hd, hd.1, Bool.false_eq_true, if_false, take]
    rw [List.cons_append, run_cons hd.2.2.1 (by rw [hfeed]), hfeed, hreverse]
    exact ih (fun c hc => hf c (List.mem_cons_of_mem d hc)) (d :: field) false

/-- **Fields.**  A field without carriage returns is read up to what ends it. -/
theorem run_writeField {mode : Mode} (hm : Begins mode) {f : Letters} (hr : Letter.char '\r' ∉ f)
    (fresh : Bool) (c : Letter) (s : Letters) :
    run ⟨mode, [], fields, rows, false⟩ fresh (writeField f ++ c :: s) =
      run (holding mode f fields rows) fresh (c :: s) := by
  -- Between the marks only doubled marks have a meaning; without them no character has one.
  cases hq : needsQuotes f with
  | true =>
    have hopen : feed ⟨mode, [], fields, rows, false⟩ '"' =
        ⟨.quoted, [], fields, rows, false⟩ := by
      rcases hm with rfl | rfl <;> rfl
    rw [writeField, if_pos hq, holding, if_pos hq, List.cons_append, List.cons_append,
      List.append_assoc, List.singleton_append, run_cons (by decide) (by rw [hopen]), hopen,
      run_doubled, List.append_nil]
    exact run_fresh _ _ _ c s
  | false =>
    have hplain := isPlain_of_needsQuotes hq hr
    rw [writeField, if_neg (by rw [hq]; decide), holding, if_neg (by rw [hq]; decide)]
    cases f with
    | nil => rfl
    | cons d f =>
      have hd := hplain d List.mem_cons_self
      have hfeed : feed ⟨mode, [], fields, rows, false⟩ d =
          ⟨.bare, [d], fields, rows, false⟩ := by
        rcases hm with rfl | rfl <;>
          simp only [feed, begin, isLineEnd_of_isPlain hd, hd.1, hd.2.1, Bool.false_eq_true,
            if_false, take]
      rw [List.cons_append, run_cons hd.2.2.1 (by rw [hfeed]), hfeed,
        run_bare (fun c hc => hplain c (List.mem_cons_of_mem d hc)), ← List.reverse_cons]
      exact run_fresh _ _ _ c s

/-- A comma ends the field. -/
theorem run_comma {mode : Mode} (hm : Begins mode) (f : Letters) (fresh : Bool)
    (s : Letters) :
    run (holding mode f fields rows) fresh (.char ',' :: s) =
      run ⟨.fieldStart, [], f :: fields, rows, false⟩ false s := by
  have hfeed : feed (holding mode f fields rows) ',' =
      ⟨.fieldStart, [], f :: fields, rows, false⟩ := by
    by_cases hq : needsQuotes f = true
    · simp [holding, hq, feed, endField]
    · by_cases hf : f = []
      · subst hf
        rcases hm with rfl | rfl <;> rfl
      · simp [holding, hq, hf, feed, endField, isLineEnd]
  rw [run_cons (by decide) (by rw [hfeed]), hfeed]

/-- A line feed ends the row, unless nothing of the row has come yet. -/
theorem run_lineFeed {mode : Mode} {f : Letters} (h : mode = .fieldStart ∨ f ≠ [])
    (fresh : Bool) (s : Letters) :
    run (holding mode f fields rows) fresh (.char '\n' :: s) =
      run ⟨.rowStart, [], [], (f :: fields).reverse :: rows, false⟩ true s := by
  have hfeed : feed (holding mode f fields rows) '\n' =
      ⟨.lineEnd, [], f :: fields, rows, false⟩ := by
    by_cases hq : needsQuotes f = true
    · simp [holding, hq, feed, endField, isLineEnd]
    · by_cases hf : f = []
      · subst hf
        rcases h with rfl | h
        · rfl
        · exact absurd rfl h
      · simp [holding, hq, hf, feed, endField, isLineEnd]
  rw [run_lineFeed_cons (by rw [hfeed]), hfeed]
  rfl

/-! ### Rows -/

/-- The fields of a row are read up to the line feed that ends it. -/
theorem run_writeFields {f : Letters} {fs : Row} {mode : Mode}
    (hm : Begins mode) (hblank : mode = .fieldStart ∨ f :: fs ≠ [[]])
    (hr : ∀ g ∈ f :: fs, Letter.char '\r' ∉ g) (fresh : Bool) (s : Letters) :
    run ⟨mode, [], fields, rows, false⟩ fresh (writeFields (f :: fs) ++ .char '\n' :: s) =
      run ⟨.rowStart, [], [], (fields.reverse ++ f :: fs) :: rows, false⟩ true s := by
  -- By induction on the fields behind the first, each of which begins behind a comma.
  induction fs generalizing f mode fields fresh with
  | nil =>
    have hlast : mode = .fieldStart ∨ f ≠ [] := hblank.imp_right fun h hf => h (by rw [hf])
    rw [writeFields, run_writeField hm (hr f List.mem_cons_self), run_lineFeed hlast,
      List.reverse_cons]
  | cons g gs ih =>
    have hrest : ∀ h ∈ g :: gs, Letter.char '\r' ∉ h := fun h hh => hr h (List.mem_cons_of_mem f hh)
    rw [writeFields, List.append_assoc, List.cons_append,
      run_writeField hm (hr f List.mem_cons_self), run_comma hm,
      ih (.inr rfl) (.inl rfl) hrest, List.reverse_cons, List.append_assoc,
      List.singleton_append]
    · intro h
      cases h

end Reader

/-- A row that is read back: it has a field, is no blank line, and holds no carriage return. -/
def Readable (row : Row) : Prop :=
  row ≠ [] ∧ row ≠ [[]] ∧ ∀ f ∈ row, Letter.char '\r' ∉ f

/-- Rows are read behind those that the reader has. -/
theorem run_rows {rs : List Row} (h : ∀ row ∈ rs, Readable row) (rows : List Row) :
    Reader.run ⟨.rowStart, [], [], rows, false⟩ true (write rs) =
      ⟨.rowStart, [], [], rs.reverse ++ rows, false⟩ := by
  induction rs generalizing rows with
  | nil => rfl
  | cons row rs ih =>
    obtain ⟨hne, hblank, hr⟩ := h row List.mem_cons_self
    obtain ⟨f, fs, rfl⟩ := List.exists_cons_of_ne_nil hne
    rw [write, List.flatMap_cons, writeRow, List.append_assoc, List.singleton_append,
      Reader.run_writeFields (.inl rfl) (.inr hblank) hr, ← write,
      ih (fun row hrow => h row (List.mem_cons_of_mem _ hrow)), List.reverse_cons,
      List.append_assoc]
    rfl

/-- **Rows are read back.**  Whatever commas, quotation marks, line feeds and blanks the fields hold,
    rows without carriage returns are the rows of their text, and nothing stops the reader. -/
theorem read_write {rs : List Row} (h : ∀ row ∈ rs, Readable row) :
    read (write rs) = (rs, false) := by
  rw [read]
  simp only [run_rows h [], List.append_nil, List.reverse_reverse]

end LineCensus.Csv
