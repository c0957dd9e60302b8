import LineCensus.Command.Session
import LineCensus.Proofs.Csv.Returns
import LineCensus.Proofs.Json.Limits
import LineCensus.Proofs.Text.Letter

namespace LineCensus

open Text

/-!
# What loading announces

* `Malformation.Announced` — the program says what is wrong with a text, and ends in good order.
* `ofSheet_eq_strayReturn_iff` — which sheets stop the reader of rows with all rows before in order.
* `ExceedsLimits` — texts beyond the limits of the readers.
* `foreseen_load_json`, `foreseen_load_xml`, `foreseen_load_csv` — what comes of a text in each of
  the formats.
* `load_announces` — a text gives a report or a word on what is wrong with it, up to limits, stray
  returns and surrogates in XML.
* `load_stray_return` — a sheet that gives neither.
-/

/-- The program says what is wrong, and does not end in a way that nothing provides for. -/
def Malformation.Announced (m : Malformation) : Prop :=
  Command.StoreError.crash? (.malformed m) = none

/-- What is wrong is announced, apart from three kinds of it. -/
theorem Malformation.announced_iff {m : Malformation} :
    m.Announced ↔ m ≠ .sheet .strayReturn ∧ m ≠ .surrogates ∧ ∀ e, m ≠ .excess e := by
  rw [Announced]
  cases m with
  | sheet f => cases f <;> simp [Command.StoreError.crash?]
  | excess e => simp [Command.StoreError.crash?]
  | _ => simp [Command.StoreError.crash?]

namespace Report

/-! ### Sheets -/

/-- What a row holds is not at fault for a carriage return. -/
theorem entryOf_ne_strayReturn (line : Nat) (t : Table (Value Letters) Letters) :
    entryOf line t ≠ .error .strayReturn := by
  unfold entryOf
  split
  · split
    · cases readUnsupported t <;> exact fun h => by cases h
    · split
      · cases readFileEntry t <;> exact fun h => by cases h
      · exact fun h => by cases h
  · exact fun h => by cases h

/-- Nor is any of some rows. -/
theorem entriesFrom_ne_strayReturn (header : Csv.Row) (line : Nat) (rows : List Csv.Row) :
    entriesFrom header line rows ≠ .error .strayReturn := by
  induction rows generalizing line with
  | nil => exact fun h => by cases h
  | cons row rows ih =>
    rw [entriesFrom]
    cases hentry : entryOf line (Table.ofList (cells header row)) with
    | error e =>
      intro h
      cases h
      exact entryOf_ne_strayReturn line _ hentry
    | ok entry =>
      intro h
      cases hrows : entriesFrom header (line + 1) rows with
      | error e =>
        rw [hrows] at h
        cases h
        exact ih (line + 1) hrows
      | ok entries =>
        rw [hrows] at h
        cases h

/-- No row in front of the place where the reader stops is at fault: there are none, or the heading
    has all columns and every row holds an entry. -/
def FrontInOrder (rows : List Csv.Row) : Prop :=
  ∀ header body, rows = header :: body → (∀ c ∈ columns, ofString c ∈ header) ∧
    ∃ entries, entriesFrom header 2 (body.filter fun row => !row.isEmpty) = .ok entries

/-- No column is missing exactly if the heading has all of them. -/
theorem find?_columns_eq_none_iff {header : Csv.Row} :
    (columns.find? fun c => !header.contains (ofString c)) = none ↔
      ∀ c ∈ columns, ofString c ∈ header := by
  simp

/-- **Sheets.**  The reader of a sheet stops at a carriage return exactly if there is one outside of
    quotes with something behind it, and no row in front of it is at fault. -/
theorem ofSheet_eq_strayReturn_iff (text : Letters) (now : Moment) :
    ofSheet text now = .error .strayReturn ↔
      Csv.BareReturn text ∧ FrontInOrder (Csv.read text).1 := by
  rw [← Csv.Reader.stray_read_iff, ofSheet]
  generalize Csv.read text = read
  obtain ⟨rows, stray⟩ := read
  cases rows with
  | nil =>
    have hfront : FrontInOrder [] := fun header body h => by cases h
    cases stray with
    | true => exact iff_of_true rfl ⟨rfl, hfront⟩
    | false =>
      -- Without a heading all columns are missing.
      refine iff_of_false ?_ fun h => absurd h.1 (by decide)
      rintro ⟨⟩
  | cons header body =>
    have hfront : FrontInOrder (header :: body) ↔ (∀ c ∈ columns, ofString c ∈ header) ∧
        ∃ entries, entriesFrom header 2 (body.filter fun row => !row.isEmpty) = .ok entries := by
      constructor
      · exact fun h => h header body rfl
      · rintro h _ _ ⟨⟩
        exact h
    rw [hfront, ← find?_columns_eq_none_iff]
    simp only [List.isEmpty_cons, Bool.false_and, Bool.false_eq_true, if_false, List.head?_cons,
      Option.getD_some, List.drop_one, List.tail_cons]
    cases hcolumns : columns.find? fun c => !header.contains (ofString c) with
    | some c => simp
    | none =>
      have hentries := entriesFrom_ne_strayReturn header 2 (body.filter fun row => !row.isEmpty)
      cases hread : entriesFrom header 2 (body.filter fun row => !row.isEmpty) with
      | error e =>
        rw [hread] at hentries
        simpa using hentries
      | ok entries => cases stray <;> simp

/-! ### Limits -/

/-- The text is beyond a limit of the readers: in JSON a run of digits or the brackets that are
    open, in XML the elements that stand one inside the other. -/
def ExceedsLimits (format : Format) (text : Letters) : Prop :=
  match format with
  | .json => ∃ e, Json.Exceeds 0 text e
  | .xml => ∃ s root, text = letters s ∧ Xml.parse? s = some root ∧
      maxNesting < elementWeight * root.depth
  | .csv => False

/-! ### Texts -/

/-- A document that is no report is announced. -/
theorem announced_document (r : Refusal) : (Malformation.document r).Announced := rfl

/-- What comes of a text: a report, a word on what is wrong, or a limit that is exceeded. -/
def Foreseen (format : Format) (text : Letters) (x : Except Malformation Report) : Prop :=
  (∃ r, x = .ok r) ∨ (∃ m, x = .error m ∧ m.Announced) ∨
    (ExceedsLimits format text ∧ ∃ e, x = .error (.excess e))

/-- What comes of a document is foreseen. -/
theorem foreseen_mapError {format : Format} {text : Letters} (x : Except Refusal Report) :
    Foreseen format text (x.mapError .document) := by
  cases x with
  | ok r => exact .inl ⟨r, rfl⟩
  | error e => exact .inr (.inl ⟨_, rfl, announced_document e⟩)

/-- What is wrong with a JSON text is announced, unless it is a limit. -/
theorem foreseen_load_json (now : Moment) (text : Letters) :
    Foreseen .json text (load .json now text) := by
  unfold load
  dsimp only
  split
  · next fault hparse =>
    by_cases hexcess : ∃ e, fault.problem = .excess e
    · obtain ⟨e, he⟩ := hexcess
      have hfault : Malformation.ofJson text fault = .excess e := by
        rw [Malformation.ofJson, he]
      exact .inr (.inr ⟨⟨e, Json.exceeds_of_parse hparse he⟩, e, congrArg _ hfault⟩)
    · have hfault : Malformation.ofJson text fault = .json text fault := by
        unfold Malformation.ofJson
        split
        · next e he => exact absurd ⟨e, he⟩ hexcess
        · rfl
      exact .inr (.inl ⟨_, congrArg _ hfault, rfl⟩)
  · exact foreseen_mapError _

/-- What is wrong with an XML text of characters is announced, unless its elements go too deep. -/
theorem foreseen_load_xml (now : Moment) (s : List Char) :
    Foreseen .xml (letters s) (load .xml now (letters s)) := by
  rw [load, ofXml, chars?_letters]
  dsimp only
  split
  · exact .inr (.inl ⟨.xml, rfl, rfl⟩)
  · next root hparse =>
    unfold ofElement
    split
    · exact .inr (.inl ⟨.rootElement root.tag, rfl, rfl⟩)
    · split
      · next hdeep => exact .inr (.inr ⟨⟨s, root, rfl, hparse, hdeep⟩, .nesting, rfl⟩)
      · exact foreseen_mapError _

/-- What is wrong with a sheet is announced, unless the reader stops at a carriage return. -/
theorem foreseen_load_csv (now : Moment) (text : Letters) :
    Foreseen .csv text (load .csv now text) ∨
      load .csv now text = .error (.sheet .strayReturn) := by
  unfold load
  dsimp only
  cases ofSheet text now with
  | ok r => exact .inl (.inl ⟨r, rfl⟩)
  | error f =>
    cases f with
    | strayReturn => exact .inr rfl
    | missingColumn name => exact .inl (.inr (.inl ⟨_, rfl, rfl⟩))
    | unknownKind line kind => exact .inl (.inr (.inl ⟨_, rfl, rfl⟩))
    | issue line i => exact .inl (.inr (.inl ⟨_, rfl, rfl⟩))

/-- What is foreseen is neither of the faults that nothing provides for. -/
theorem Foreseen.ne_unannounced {format : Format} {text : Letters} {x : Except Malformation Report}
    (h : Foreseen format text x) : x ≠ .error (.sheet .strayReturn) ∧ x ≠ .error .surrogates := by
  obtain ⟨r, rfl⟩ | ⟨m, rfl, hannounced⟩ | ⟨-, e, rfl⟩ := h
  · constructor <;> rintro ⟨⟩
  · obtain ⟨hstray, hsurrogates, -⟩ := Malformation.announced_iff.1 hannounced
    exact ⟨fun h => hstray (Except.error.inj h), fun h => hsurrogates (Except.error.inj h)⟩
  · constructor <;> rintro ⟨⟩

/-- A sheet is refused for a carriage return exactly if its reader stops there. -/
theorem load_csv_eq_strayReturn_iff (now : Moment) (text : Letters) :
    load .csv now text = .error (.sheet .strayReturn) ↔
      Csv.BareReturn text ∧ FrontInOrder (Csv.read text).1 := by
  rw [← ofSheet_eq_strayReturn_iff text now, load]
  cases ofSheet text now with
  | ok r => simp [Except.mapError]
  | error f => simp [Except.mapError]

/-- No sheet is refused for surrogates. -/
theorem load_csv_ne_surrogates (now : Moment) (text : Letters) :
    load .csv now text ≠ .error .surrogates := by
  rw [load]
  cases ofSheet text now with
  | ok r => exact fun h => by cases h
  | error f => exact fun h => by cases h

/-- **Loading.**  Every text in every format gives a report, or the program says what is wrong with
    it, unless it exceeds a limit of the readers; or it is a sheet that goes on behind a carriage
    return outside of quotes, with no fault in the rows before, or an XML text with a surrogate.
    These two faults are not announced, and nothing else leads to them. -/
theorem load_announces (format : Format) (now : Moment) (text : Letters) :
    ((∃ r, load format now text = .ok r) ∨
      (∃ m, load format now text = .error m ∧ m.Announced) ∨
      (ExceedsLimits format text ∧ ∃ e, load format now text = .error (.excess e)) ∨
      load format now text = .error (.sheet .strayReturn) ∨
      load format now text = .error .surrogates) ∧
    (load format now text = .error (.sheet .strayReturn) ↔
      format = .csv ∧ Csv.BareReturn text ∧ FrontInOrder (Csv.read text).1) ∧
    (load format now text = .error .surrogates ↔
      format = .xml ∧ ∃ n, Letter.surrogate n ∈ text) := by
  cases format with
  | json =>
    have h := foreseen_load_json now text
    refine ⟨h.imp_right (.imp_right .inl), ?_, ?_⟩
    · exact iff_of_false h.ne_unannounced.1 fun hcsv => by cases hcsv.1
    · exact iff_of_false h.ne_unannounced.2 fun hxml => by cases hxml.1
  | xml =>
    -- The reader takes an XML text only as a whole: one surrogate is enough.
    cases hchars : chars? text with
    | none =>
      have hload : load .xml now text = .error .surrogates := by rw [load, ofXml, hchars]
      refine ⟨.inr (.inr (.inr (.inr hload))), ?_, ?_⟩
      · rw [hload]
        exact iff_of_false (fun h => by cases h) fun hcsv => by cases hcsv.1
      · exact iff_of_true hload ⟨rfl, chars?_eq_none_iff.1 hchars⟩
    | some s =>
      obtain rfl := chars?_eq_some_iff.1 hchars
      have hnone : ¬∃ n, Letter.surrogate n ∈ letters s := by
        rw [← chars?_eq_none_iff, hchars]
        exact fun h => by cases h
      have h := foreseen_load_xml now s
      refine ⟨h.imp_right (.imp_right .inl), ?_, ?_⟩
      · exact iff_of_false h.ne_unannounced.1 fun hcsv => by cases hcsv.1
      · exact iff_of_false h.ne_unannounced.2 fun hxml => hnone hxml.2
  | csv =>
    refine ⟨?_, ?_, ?_⟩
    · rcases foreseen_load_csv now text with h | h
      · exact h.imp_right (.imp_right .inl)
      · exact .inr (.inr (.inr (.inl h)))
    · rw [and_iff_right rfl, load_csv_eq_strayReturn_iff]
    · exact iff_of_false (load_csv_ne_surrogates now text) fun hxml => by cases hxml.1

/-- **A sheet without a word.**  A carriage return in a path gives neither a report nor a word on
    what is wrong. -/
theorem load_stray_return :
    let text : Letters := "kind,path,language,total,logical,comment,empty\nfile,a\rb,C,1,1,0,0\n"
    let now : Moment := ⟨2026, 1, 2, 3, 4, 5, 678901, some 0, by decide⟩
    ∃ m, load .csv now text = .error m ∧ ¬m.Announced := by
  intro text now
  have hsheet : ofSheet text now = .error .strayReturn := by decide +kernel
  refine ⟨.sheet .strayReturn, ?_, fun h => (Malformation.announced_iff.1 h).1 rfl⟩
  rw [load, hsheet]
  rfl

end Report

end LineCensus
