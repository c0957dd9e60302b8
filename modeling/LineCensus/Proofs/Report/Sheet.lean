import LineCensus.Report.Storage
import LineCensus.Proofs.Csv
import LineCensus.Proofs.Report.Build
import LineCensus.Proofs.Report.Numerals

namespace LineCensus.Report

open Text Schema

/-!
# Sheets read back

* `entryRow`, `sheet_eq` — the row of an entry; a sheet is its heading and the rows of its entries.
* `readable_entryRow` — such rows survive as rows.
* `reads_entryOf`, `reads_entriesFrom` — an entry is read from its row, and entries from theirs.
* `reads_ofSheet` — a sheet gives the report that is built from its entries.
* `load_dump_csv_build` — a report of files, stored as a sheet and loaded, is the same report, made
  at the moment at which it is loaded.
-/

/-! ### Rows -/

/-- The row of an entry. -/
def entryRow : Entry → Csv.Row
  | .inl f => fileRow f
  | .inr p => unsupportedRow p

/-- The heading of a sheet. -/
def heading : Csv.Row := columns.map ofString

/-- The entries of a report in the order of their rows. -/
def entries (r : Report) : List Entry := r.files.map .inl ++ r.unsupported.map .inr

/-- A sheet is its heading and the rows of its entries. -/
theorem sheet_eq (r : Report) : r.sheet = heading :: r.entries.map entryRow := by
  rw [sheet, entries, List.map_append, List.map_map, List.map_map, List.cons_append]
  rfl

/-- The files among the entries. -/
theorem getLeft?_entries (r : Report) : r.entries.filterMap Sum.getLeft? = r.files := by
  simp [entries, List.filterMap_append, List.filterMap_map, Function.comp_def]

/-- The files without a language among them. -/
theorem getRight?_entries (r : Report) : r.entries.filterMap Sum.getRight? = r.unsupported := by
  simp [entries, List.filterMap_append, List.filterMap_map, Function.comp_def]

/-- No carriage return stands in the texts of an entry. -/
def ReturnFree : Entry → Prop
  | .inl f => Letter.char '\r' ∉ f.path ∧ Letter.char '\r' ∉ f.language
  | .inr p => Letter.char '\r' ∉ p

instance : DecidablePred ReturnFree
  | .inl _ => inferInstanceAs (Decidable (_ ∧ _))
  | .inr _ => inferInstanceAs (Decidable (_ ∉ _))

/-- No numeral holds a carriage return. -/
theorem return_not_mem_numeral (n : Nat) : Letter.char '\r' ∉ ofString (numeral n) := by
  rw [numeral, ofString_ofList]
  intro h
  obtain ⟨c, hc, heq⟩ := List.mem_map.1 h
  cases heq
  exact absurd (isDigit_of_mem_showNat hc) (by decide)

/-- The rows of entries without carriage returns survive as rows. -/
theorem readable_entryRow {e : Entry} (h : ReturnFree e) : Csv.Readable (entryRow e) := by
  cases e with
  | inl f =>
    refine ⟨List.cons_ne_nil _ _, ?_, ?_⟩
    · intro heq
      cases (List.cons.inj heq).2
    · simp only [entryRow, fileRow, tallyFields, List.forall_mem_cons]
      exact ⟨by decide, h.1, h.2, return_not_mem_numeral _, return_not_mem_numeral _,
        return_not_mem_numeral _, return_not_mem_numeral _, List.forall_mem_nil _⟩
  | inr p =>
    refine ⟨List.cons_ne_nil _ _, ?_, ?_⟩
    · intro heq
      cases (List.cons.inj heq).2
    · simp only [entryRow, unsupportedRow, List.forall_mem_cons]
      exact ⟨by decide, h, by decide, by decide, by decide, by decide, by decide,
        List.forall_mem_nil _⟩

/-- So does the heading. -/
theorem readable_heading : Csv.Readable heading := by
  refine ⟨List.cons_ne_nil _ _, by decide, by decide⟩

/-! ### Entries -/

/-- The counts of an entry have few enough digits to be read; a file without a language has none. -/
def ShortEntry : Entry → Prop
  | .inl f => ShortTally f.tally
  | .inr _ => True

/-- The cells of a row stand under the heading. -/
theorem map_fst_cells (header row : Csv.Row) :
    (cells header row).map (·.1) = header := by
  induction header generalizing row with
  | nil => rfl
  | cons c cs ih => cases row <;> exact congrArg (c :: ·) (ih _)

/-- The columns are distinct, so no cell of a row overwrites another. -/
theorem ofList_cells (row : Csv.Row) : Table.ofList (cells heading row) = cells heading row := by
  apply Table.ofList_of_nodup
  rw [map_fst_cells]
  decide

/-- A row of a file holds the file. -/
theorem reads_readFileEntry_cells (f : FileTally) :
    Reads (readFileEntry (cells heading (entryRow (.inl f)))) f (ShortTally f.tally) :=
  reads_readFileEntry f.balanced rfl rfl (reads_readTally rfl rfl rfl rfl)

/-- **Entries.**  An entry is read from its row, if its counts can be. -/
theorem reads_entryOf (line : Nat) (e : Entry) :
    Reads (entryOf line (cells heading (entryRow e))) e (ShortEntry e) := by
  cases e with
  | inl f =>
    refine Reads.of_ok_iff ((reads_readFileEntry_cells f).map Sum.inl) fun b => ?_
    show (Except.map Sum.inl _ = _) ↔ _
    cases readFileEntry (cells heading (entryRow (.inl f))) <;> simp [Except.map]
  | inr p => exact Reads.of_eq rfl

/-- Entries are read from their rows, if the counts of all files can be. -/
theorem reads_entriesFrom (line : Nat) (es : List Entry) :
    Reads (entriesFrom heading line (es.map entryRow)) es (∀ e ∈ es, ShortEntry e) := by
  induction es generalizing line with
  | nil => exact (Reads.of_eq rfl).congr (by simp)
  | cons e es ih =>
    rw [List.map_cons, entriesFrom, ofList_cells, List.forall_mem_cons]
    have hrow := (reads_entryOf line e).bind (y := fun e =>
      (entriesFrom heading (line + 1) (es.map entryRow)).map (e :: ·)) ((ih (line + 1)).map _)
    generalize entryOf line (cells heading (entryRow e)) = first at hrow ⊢
    cases first <;> exact hrow

/-! ### Sheets -/

/-- No row of an entry is empty. -/
theorem filter_rows (es : List Entry) :
    (es.map entryRow).filter (fun row => !row.isEmpty) = es.map entryRow := by
  apply List.filter_eq_self.2
  intro row hrow
  obtain ⟨e, -, rfl⟩ := List.mem_map.1 hrow
  cases e <;> rfl

/-- Only the counts of files have to be read. -/
theorem forall_shortEntry {r : Report} :
    (∀ e ∈ r.entries, ShortEntry e) ↔ ∀ f ∈ r.files, ShortTally f.tally := by
  rw [entries, List.forall_mem_append, List.forall_mem_map, List.forall_mem_map]
  exact and_iff_left fun _ _ => trivial

/-- **Sheets.**  The sheet of a report without carriage returns gives the report that is built from
    its files, if their counts can be read. -/
theorem reads_ofSheet {r : Report} (hr : ∀ e ∈ r.entries, ReturnFree e) (now : Moment) :
    Reads (ofSheet (r.dump .csv) now) (build r.files r.unsupported now)
      (∀ f ∈ r.files, ShortTally f.tally) := by
  have hrows : Csv.read (r.dump .csv) = (heading :: r.entries.map entryRow, false) := by
    rw [dump, sheet_eq]
    refine Csv.read_write (List.forall_mem_cons.2 ⟨readable_heading, ?_⟩)
    exact List.forall_mem_map.2 fun e he => readable_entryRow (hr e he)
  -- No column is missing, so the report is built from the entries of the rows.
  have hcolumns : (columns.find? fun c => !heading.contains (ofString c)) = none := by decide
  have hbuild := (reads_entriesFrom 2 r.entries).bind (y := fun es =>
    (.ok (build (es.filterMap Sum.getLeft?) (es.filterMap Sum.getRight?) now) :
      Except SheetFault Report)) (Reads.of_eq rfl)
  rw [getLeft?_entries, getRight?_entries, forall_shortEntry, and_true] at hbuild
  rw [ofSheet, hrows]
  simp only [List.isEmpty_cons, Bool.false_and, Bool.false_eq_true, if_false, List.head?_cons,
    Option.getD_some, hcolumns, List.drop_one, List.tail_cons, filter_rows]
  generalize entriesFrom heading 2 (r.entries.map entryRow) = read at hbuild ⊢
  cases read <;> exact hbuild

/-- **Sheets keep the counts.**  Files with or without a language and with any characters but
    carriage returns in their paths and languages, in whatever order and however often a path is
    repeated: the report that is built from them, stored as a sheet and loaded, has the same files,
    languages, totals and files without a language, in the same order.  It was made when it was
    loaded.  This holds exactly if the counts of the files have no more digits than are read. -/
theorem load_dump_csv_build {files : List FileTally} {unsupported : List Letters}
    (hf : ∀ f ∈ files, Letter.char '\r' ∉ f.path ∧ Letter.char '\r' ∉ f.language)
    (hu : ∀ p ∈ unsupported, Letter.char '\r' ∉ p) (made now : Moment) :
    load .csv now ((build files unsupported made).dump .csv) =
        .ok { build files unsupported made with generatedAt := now } ↔
      ∀ f ∈ files, ShortTally f.tally := by
  have hreturns : ∀ e ∈ (build files unsupported made).entries, ReturnFree e := by
    rw [entries, List.forall_mem_append, List.forall_mem_map, List.forall_mem_map]
    refine ⟨fun f hmem => hf f ?_, fun p hmem => hu p ?_⟩
    · exact (mem_sortOn _).1 hmem
    · exact mem_dedup.1 (mem_sorted.1 hmem)
  have hload := (reads_ofSheet hreturns now).mapError Malformation.sheet
  rw [build_idem] at hload
  have hfiles : (∀ f ∈ (build files unsupported made).files, ShortTally f.tally) ↔
      ∀ f ∈ files, ShortTally f.tally := by
    simp only [build, mem_sortOn]
  -- Nothing but the moment depends on when a report is built.
  have hnow : { build files unsupported made with generatedAt := now } =
      build files unsupported now := rfl
  rw [hnow, ← hfiles]
  exact (hload _).trans (and_iff_right rfl)

/-- `load_dump_csv_build` for paths with commas, quotation marks and line feeds, an empty path and
    an empty language, blanks at both ends, and one path twice with different counts. -/
theorem load_dump_csv_build_quoted :
    let files : List FileTally :=
      [⟨" b,\"c\"\n.py ", "", ⟨3, 1, 1, 1⟩, by decide⟩, ⟨"", "C, \"99\"", ⟨0, 0, 0, 0⟩, by decide⟩,
       ⟨" b,\"c\"\n.py ", "Rust", ⟨12, 12, 0, 0⟩, by decide⟩]
    let unsupported : List Letters := ["z\n", "", "z\n", "\""]
    let made : Moment := ⟨2024, 2, 29, 23, 59, 58, 120, some (-12600), by decide⟩
    let now : Moment := ⟨2026, 1, 2, 3, 4, 5, 0, none, by decide⟩
    (∀ f ∈ files, Letter.char '\r' ∉ f.path ∧ Letter.char '\r' ∉ f.language) ∧
      (∀ p ∈ unsupported, Letter.char '\r' ∉ p) ∧
      load .csv now ((build files unsupported made).dump .csv) =
        .ok { build files unsupported made with generatedAt := now } := by
  intro files unsupported made now
  have hf : ∀ f ∈ files, Letter.char '\r' ∉ f.path ∧ Letter.char '\r' ∉ f.language := by decide
  have hu : ∀ p ∈ unsupported, Letter.char '\r' ∉ p := by decide
  have hshort : ∀ f ∈ files, ShortTally f.tally := by decide +kernel
  exact ⟨hf, hu, (load_dump_csv_build hf hu made now).2 hshort⟩

end LineCensus.Report
