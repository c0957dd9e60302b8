import LineCensus.Proofs.Report.Loaded
import LineCensus.Proofs.Xml.Values

namespace LineCensus.Report

open Text Schema

/-!
# Reports as elements

* `isSolid_of_isVersion`, `isSolid_of_mem_stored`, `isSolid_of_mem_digest` — the other texts of a
  document, which elements keep.
* `fits_toValue`, `printable_toValue` — the document of a report as elements.
* `reads_read_settled` — the fields of a report are read from elements with its texts settled.
-/

/-! ### Texts that are always kept -/

/-- The digits of a version may be those of any script. -/
theorem isSolid_of_isDecimalDigit {c : Char} (h : isDecimalDigit c = true) :
    Xml.isSolid c = true := by
  have hblocks : ∀ b ∈ digitBlocks ++ laterDigitBlocks, ∀ i < 10,
      Xml.isSolid (Char.ofNat (b + i)) = true := by decide +kernel
  obtain ⟨b, hb, hc⟩ := List.any_eq_true.1 h
  simp only [Bool.and_eq_true, decide_eq_true_eq] at hc
  have hchar := hblocks b hb (c.toNat - b) (by omega)
  rwa [Nat.add_sub_cancel' hc.1, Char.ofNat_toNat] at hchar

/-- So is the dot between them. -/
theorem isSolid_of_isVersion {s : List Char} (h : isVersion s = true) :
    ∀ c ∈ s, Xml.isSolid c = true := by
  intro c hc
  rw [← List.takeWhile_append_dropWhile (p := isDecimalDigit) (l := s), List.mem_append] at hc
  rcases hc with hc | hc
  · exact isSolid_of_isDecimalDigit (List.mem_takeWhile_imp hc)
  · unfold isVersion at h
    split at h
    · next minor hminor =>
      rw [hminor] at hc
      rw [Bool.and_eq_true, List.all_eq_true] at h
      rcases List.mem_cons.1 hc with rfl | hc
      · rfl
      · exact isSolid_of_isDecimalDigit (h.2 c hc)
    · cases h

/-- Digits with zeros in front of them are kept. -/
theorem isSolid_of_mem_padded {width n : Nat} {c : Char} (h : c ∈ Moment.padded width n) :
    Xml.isSolid c = true :=
  Xml.isSolid_of_isDigit (Moment.isDigit_of_mem_padded h)

/-- So is the text of a moment. -/
theorem isSolid_of_mem_stored (m : Moment) : ∀ c ∈ m.stored.toList, Xml.isSolid c = true := by
  have hpadded (width n : Nat) : ∀ c ∈ Moment.padded width n, Xml.isSolid c = true :=
    fun c hc => isSolid_of_mem_padded hc
  have hfraction : ∀ c ∈ Moment.fraction m.micro, Xml.isSolid c = true := by
    rw [Moment.fraction]
    split
    · exact List.forall_mem_nil _
    · exact List.forall_mem_cons.2 ⟨rfl, hpadded 6 m.micro⟩
  have hoffset : ∀ c ∈ Moment.storedOffset m.offset, Xml.isSolid c = true := by
    unfold Moment.storedOffset
    split
    · exact List.forall_mem_nil _
    · next o =>
      split
      · exact List.forall_mem_singleton.2 rfl
      · rw [Moment.offsetText, List.cons_append]
        refine List.forall_mem_cons.2 ⟨?_, ?_⟩
        · split <;> rfl
        · exact List.forall_mem_append.2
            ⟨hpadded 2 _, List.forall_mem_cons.2 ⟨rfl, hpadded 2 _⟩⟩
  -- What is left are the marks of a date and a time.
  rw [Moment.toList_stored]
  simp only [List.forall_mem_append, List.forall_mem_cons]
  exact ⟨hpadded 4 m.year, rfl, hpadded 2 m.month, rfl, hpadded 2 m.day, rfl, hpadded 2 m.hour,
    rfl, hpadded 2 m.minute, rfl, hpadded 2 m.second, hfraction, hoffset⟩

/-- So is a digest. -/
theorem isSolid_of_mem_digest (r : Report) : ∀ c ∈ r.digest.toList, Xml.isSolid c = true := by
  have hdigit : ∀ n < 16, Xml.isSolid (hexDigit n) = true := by decide
  rw [digest, Sha256.digest, String.toList_ofList]
  intro c hc
  obtain ⟨x, -, hx⟩ := List.mem_flatMap.1 hc
  rw [showHex] at hx
  obtain ⟨i, -, rfl⟩ := List.mem_map.1 hx
  exact hdigit _ (Nat.mod_lt _ (by decide))

/-! ### The document of a report -/

/-- The texts in the document of a report are its own, its checksum, and strings. -/
theorem forall_texts_toValue_iff {r : Report} {P : Letters → Prop}
    (hP : ∀ s : String, P (ofString s)) :
    (∀ s ∈ r.toValue.texts, P s) ↔ (∀ s ∈ r.texts, P s) ∧ ∀ c ∈ r.checksum, P c := by
  simp only [toValue, contentEntries, fileValue, languageValue, summaryValue, tallyEntries,
    Value.texts, textsOfEntries_eq_flatMap, textsOfItems_eq_flatMap, forall_texts_iff,
    List.forall_mem_append, List.forall_mem_cons, List.forall_mem_flatMap, List.forall_mem_map,
    List.not_mem_nil, false_implies, implies_true, hP, true_and, and_true, and_assoc,
    Option.mem_toList]
  rfl

section Fits

open Xml (Fits IsTag)

/-- The tags that hold lists are the same as strings and as letters. -/
theorem spells_reportContainers : Xml.Spells reportContainers reportContainers :=
  fun tag => Table.get?_map ofString_injective ofString reportContainers tag

/-- A table fits if its names are distinct tags and its values fit under them. -/
theorem fits_table {room : Nat} {tag : String} (htag : IsTag tag)
    (hplain : reportContainers.has tag = false) (entries : List (String × Value Letters))
    (hne : entries ≠ []) (hkeys : (entries.map (·.1)).Nodup)
    (h : ∀ e ∈ entries, Fits reportContainers room e.1 e.2.plain) :
    Fits reportContainers (room + 1) tag
      (Value.table (entries.map fun e => (ofString e.1, e.2))).plain := by
  have hentries : plainEntries (entries.map fun e => (ofString e.1, e.2)) =
      entries.map fun e => (e.1, e.2.plain) := by
    rw [plainEntries_eq_map, List.map_map]
    exact List.map_congr_left fun e _ => Prod.ext (stringOf_ofString e.1) rfl
  rw [Value.plain, hentries]
  refine .table htag hplain (by simpa using hne) ?_ (List.forall_mem_map.2 h)
  rw [List.map_map]
  exact hkeys

/-- A list fits into its container if its items fit under the tag of those. -/
theorem fits_list {α : Type} {room : Nat} {tag item : String} (htag : IsTag tag)
    (hitem : reportContainers.get? tag = some item) {write : α → Value Letters}
    (h : ∀ a, Fits reportContainers room item (write a).plain) (as : List α) :
    Fits reportContainers (room + 1) tag (Value.list (as.map write)).plain := by
  rw [Value.plain, plainItems_eq_map]
  exact .list htag hitem (List.forall_mem_map.2 (List.forall_mem_map.2 fun a _ => h a))

/-- The four counts with their names. -/
def namedCounts (t : Tally Nat) : List (String × Value Letters) :=
  [("total", .int t.total), ("logical", .int t.logical), ("comment", .int t.comment),
   ("empty", .int t.empty)]

/-- The four counts are elements of their own. -/
theorem fits_namedCounts {room : Nat} (t : Tally Nat) :
    ∀ e ∈ namedCounts t, Fits reportContainers room e.1 e.2.plain := by
  simp only [namedCounts, List.forall_mem_cons]
  exact ⟨.int (by decide) rfl _, .int (by decide) rfl _, .int (by decide) rfl _,
    .int (by decide) rfl _, List.forall_mem_nil _⟩

/-- The counts of a file are an element with six elements in it. -/
theorem fits_fileValue {room : Nat} (f : FileTally) :
    Fits reportContainers (room + 1) "file" (fileValue f).plain :=
  fits_table (by decide) rfl
    (("path", .text f.path) :: ("language", .text f.language) :: namedCounts f.tally)
    (List.cons_ne_nil _ _)
    (show ["path", "language", "total", "logical", "comment", "empty"].Nodup by decide)
    (List.forall_mem_cons.2 ⟨.text (show IsTag "path" by decide) rfl _, List.forall_mem_cons.2
      ⟨.text (show IsTag "language" by decide) rfl _, fits_namedCounts f.tally⟩⟩)

/-- So are those of a language. -/
theorem fits_languageValue {room : Nat} (l : LanguageTally) :
    Fits reportContainers (room + 1) "language" (languageValue l).plain :=
  fits_table (by decide) rfl
    (("language", .text l.language) :: ("fileCount", .int l.fileCount) :: namedCounts l.tally)
    (List.cons_ne_nil _ _)
    (show ["language", "fileCount", "total", "logical", "comment", "empty"].Nodup by decide)
    (List.forall_mem_cons.2 ⟨.text (show IsTag "language" by decide) rfl _, List.forall_mem_cons.2
      ⟨.int (show IsTag "fileCount" by decide) rfl _, fits_namedCounts l.tally⟩⟩)

/-- So are the totals. -/
theorem fits_summaryValue {room : Nat} (s : Totals) :
    Fits reportContainers (room + 1) "summary" (summaryValue s).plain :=
  fits_table (by decide) rfl
    (("totalFiles", .int s.fileCount) ::
      (namedCounts s.tally ++ [("languagesCount", (.int s.languageCount : Value Letters))]))
    (List.cons_ne_nil _ _)
    (show ["totalFiles", "total", "logical", "comment", "empty", "languagesCount"].Nodup by decide)
    (List.forall_mem_cons.2 ⟨.int (show IsTag "totalFiles" by decide) rfl _,
      List.forall_mem_append.2 ⟨fits_namedCounts s.tally,
        List.forall_mem_singleton.2 (.int (show IsTag "languagesCount" by decide) rfl _)⟩⟩)

/-- A path without a language is an element with one in it. -/
theorem fits_path {room : Nat} (p : Letters) :
    Fits reportContainers (room + 1) "unsupportedFile"
      (Value.table [(ofString "path", .text p)]).plain :=
  fits_table (by decide) rfl [("path", .text p)] (List.cons_ne_nil _ _) (List.nodup_singleton _)
    (List.forall_mem_singleton.2 (.text (show IsTag "path" by decide) rfl _))

/-- The entries of a report with their names as strings. -/
def namedContent (r : Report) : List (String × Value Letters) :=
  [("reportFormatVersion", .text r.version), ("generatedAt", .text r.generatedAt.stored),
   ("files", .list (r.files.map fileValue)), ("languages", .list (r.languages.map languageValue)),
   ("summary", summaryValue r.summary),
   ("unsupportedFiles", .list (r.unsupported.map fun p => .table [("path", .text p)]))]

/-- **Elements of a report.**  They stand four levels deep. -/
theorem fits_toValue (r : Report) : Fits reportContainers 3 "report" r.toValue.plain := by
  have hcontent : ∀ e ∈ r.namedContent, Fits reportContainers 2 e.1 e.2.plain := by
    simp only [namedContent, List.forall_mem_cons]
    exact ⟨.text (by decide) rfl _, .text (by decide) rfl _,
      fits_list (by decide) rfl (fun f => fits_fileValue f) r.files,
      fits_list (by decide) rfl (fun l => fits_languageValue l) r.languages,
      fits_summaryValue r.summary,
      fits_list (by decide) rfl (fun p => fits_path p) r.unsupported, List.forall_mem_nil _⟩
  rw [toValue]
  cases r.checksum with
  | none =>
    exact fits_table (by decide) rfl r.namedContent (List.cons_ne_nil _ _)
      (show ["reportFormatVersion", "generatedAt", "files", "languages", "summary",
        "unsupportedFiles"].Nodup by decide) hcontent
  | some c =>
    exact fits_table (by decide) rfl (r.namedContent ++ [("checksum", (.text c : Value Letters))])
      (List.cons_ne_nil _ _)
      (show ["reportFormatVersion", "generatedAt", "files", "languages", "summary",
        "unsupportedFiles", "checksum"].Nodup by decide)
      (List.forall_mem_append.2 ⟨hcontent, List.forall_mem_singleton.2
        (.text (show IsTag "checksum" by decide) rfl _)⟩)

end Fits

/-- A list is printable if its items are. -/
theorem printable_list {α : Type} (write : α → Value Letters) (as : List α) :
    Xml.printable (.list (as.map write)) = as.all fun a => Xml.printable (write a) := by
  rw [Xml.printable, Xml.printableItems_eq_all, List.all_map]
  rfl

/-- The counts of a file are printable if its texts are. -/
theorem printable_fileValue (f : FileTally) :
    Xml.printable (fileValue f) =
      (Xml.isPrintable f.path && Xml.isPrintable f.language) := by
  simp only [fileValue, tallyEntries, Xml.printable, Xml.printableEntries, Bool.and_true]

/-- So are those of a language. -/
theorem printable_languageValue (l : LanguageTally) :
    Xml.printable (languageValue l) = Xml.isPrintable l.language := by
  simp only [languageValue, tallyEntries, Xml.printable, Xml.printableEntries, Bool.and_true]

/-- So is a path without a language. -/
theorem printable_path (p : Letters) :
    Xml.printable (.table [(ofString "path", .text p)]) = Xml.isPrintable p := Bool.and_true _

/-- The totals are always printable. -/
theorem printable_summaryValue (s : Totals) : Xml.printable (summaryValue s) = true := rfl

/-- A report is read from its elements if all its paths and languages are printable. -/
theorem printable_toValue {r : Report} (h : r.Storable) :
    Xml.printable r.toValue = true ↔ ∀ s ∈ r.texts, Xml.isPrintable s = true := by
  have hversion : Xml.isPrintable (ofString r.version) = true :=
    Xml.isPrintable_of_isSolid (isSolid_of_isVersion h.version)
  have hmoment : Xml.isPrintable (ofString r.generatedAt.stored) = true :=
    Xml.isPrintable_of_isSolid (isSolid_of_mem_stored r.generatedAt)
  have hchecksum : ∀ c ∈ r.checksum.toList, Xml.isPrintable c = true := by
    intro c hc
    rcases h.checksum with hnone | hsome
    · rw [hnone] at hc
      cases hc
    · rw [hsome, Option.toList_some, List.mem_singleton] at hc
      rw [hc]
      exact Xml.isPrintable_of_isSolid (isSolid_of_mem_digest r)
  -- Version, moment and checksum can always be printed, and so can numbers.
  have htext (s : Letters) : Xml.printable (.text s) = Xml.isPrintable s := rfl
  rw [toValue, Xml.printable, Xml.printableEntries_eq_all, List.all_eq_true]
  simp only [contentEntries, forall_texts_iff, List.forall_mem_append, List.forall_mem_cons,
    List.forall_mem_map, printable_list, printable_summaryValue, printable_fileValue,
    printable_languageValue, printable_path, htext, hversion, hmoment, List.all_eq_true,
    Bool.and_eq_true, List.not_mem_nil, false_implies, implies_true, true_and, and_true, and_assoc]
  exact ⟨fun hall => ⟨hall.1, hall.2.1, hall.2.2.1⟩,
    fun hall => ⟨hall.1, hall.2.1, hall.2.2, hchecksum⟩⟩

/-! ### Reading -/

/-- A file is read with its texts settled. -/
theorem reads_file (f : FileTally) :
    Reads (record "FileStat" readFileEntry (Xml.settleValue (fileValue f))) (mapFile Xml.settle f)
      (ShortTally f.tally) :=
  reads_readFileEntry f.balanced rfl rfl (reads_readTally rfl rfl rfl rfl)

/-- So is a language. -/
theorem reads_language (l : LanguageTally) :
    Reads (record "LanguageSummary" readLanguage (Xml.settleValue (languageValue l)))
      (mapLanguage Xml.settle l) (ShortLanguage l) := by
  let t : Table (Value Letters) Letters := Xml.settleEntries
    (("language", .text l.language) :: ("fileCount", .int l.fileCount) ::
      tallyEntries Int.ofNat l.tally)
  have htally : Reads (readTally t) l.tally (ShortTally l.tally) :=
    reads_readTally rfl rfl rfl rfl
  have hlanguage : t.get? (ofString "language") = some (.text (Xml.settle l.language)) := rfl
  have hcount : t.get? (ofString "fileCount") = some (.text (ofString (numeral l.fileCount))) := rfl
  have hfields := (Reads.field hlanguage (Reads.of_eq (text_text (Xml.settle l.language))) []).both <|
    (Reads.field hcount (reads_count_numeral l.fileCount) ["file_count"]).both htally
  exact (hfields.map _).congr (iff_of_eq (true_and _))

/-- The totals have no texts. -/
theorem reads_totals (s : Totals) :
    Reads (record "GlobalSummary" readTotals (Xml.settleValue (summaryValue s))) s
      (ShortTotals s) := by
  let t : Table (Value Letters) Letters := Xml.settleEntries
    (("totalFiles", .int s.fileCount) :: (tallyEntries Int.ofNat s.tally ++
      ([("languagesCount", .int s.languageCount)] : Entries)))
  have htally : Reads (readTally t) s.tally (ShortTally s.tally) :=
    reads_readTally rfl rfl rfl rfl
  have hfiles : t.get? (ofString "totalFiles") = some (.text (ofString (numeral s.fileCount))) := rfl
  have hlanguages : t.get? (ofString "languagesCount") =
      some (.text (ofString (numeral s.languageCount))) := rfl
  have hfields := (Reads.field hfiles (reads_count_numeral s.fileCount) ["total_files"]).both <|
    htally.both (Reads.field hlanguages (reads_count_numeral s.languageCount) ["languages_count"])
  exact (hfields.map _).congr (and_congr_right' and_comm)

/-- A path without a language is read with its text settled. -/
theorem reads_path (p : Letters) :
    Reads (record "UnsupportedFile" readUnsupported
      (Xml.settleValue (.table [(ofString "path", .text p)]))) (Xml.settle p) True := by
  let t : Table (Value Letters) Letters := [(ofString "path", .text (Xml.settle p))]
  have hpath : t.get? (ofString "path") = some (.text (Xml.settle p)) := rfl
  exact Reads.field hpath (Reads.of_eq (text_text (Xml.settle p))) []

/-- Records of a list, each with its texts settled. -/
theorem reads_records {α β : Type} {read : Value Letters → Checked β} {write : α → Value Letters}
    {f : α → β} {P : α → Prop} (h : ∀ a, Reads (read (Xml.settleValue (write a))) (f a) (P a))
    (as : List α) :
    Reads (list read (Xml.settleValue (.list (as.map write)))) (as.map f) (∀ a ∈ as, P a) := by
  rw [Xml.settleValue, Xml.settleItems_eq_map, List.map_map]
  exact Reads.list fun a _ => h a

/-- **Fields.**  The report that is read from elements has its texts settled, and it is read if its
    numbers can be. -/
theorem reads_read_settled {r : Report} (h : r.Storable) :
    Reads (read (Xml.settleEntries (r.contentEntries ++
        r.checksum.toList.map fun c => (ofString "checksum", Value.text c))))
      (r.mapTexts Xml.settle) r.Legible := by
  set t : Table (Value Letters) Letters := Xml.settleEntries (r.contentEntries ++
    r.checksum.toList.map fun c => (ofString "checksum", Value.text c)) with ht
  -- Version, moment and checksum are kept as they are; only the records have texts to be settled.
  have hversion :
      Reads (Schema.version (.text (Xml.settle (ofString r.version)))) r.version True := by
    rw [ofString, Xml.settle_of_isSolid (isSolid_of_isVersion h.version)]
    exact Reads.of_eq (version_text h.version)
  have hmoment : Reads (moment (.text (Xml.settle (ofString r.generatedAt.stored)))) r.generatedAt
      True := by
    rw [ofString, Xml.settle_of_isSolid (isSolid_of_mem_stored r.generatedAt)]
    exact Reads.of_eq (moment_stored h.offset)
  have hchecksum : Reads (fieldOr t ["checksum"] none (optional text)) r.checksum True := by
    refine Reads.of_eq ?_
    rcases h.checksum with hnone | hsome
    · rw [ht, hnone]
      exact fieldOr_of_none rfl _ _
    · have hget : t.get? (ofString "checksum") = some (.text (Xml.settle (ofString r.digest))) := by
        rw [ht, hsome]
        rfl
      rw [ofString, ofString, Xml.settle_of_isSolid (isSolid_of_mem_digest r)] at hget
      rw [hsome]
      exact fieldOr_of_get? hget rfl
  have hfields :=
    (Reads.field (show t.get? (ofString "reportFormatVersion") = _ from rfl) hversion
      ["report_format_version"]).both <|
    (Reads.field (show t.get? (ofString "generatedAt") = _ from rfl) hmoment
      ["generated_at"]).both <|
    (Reads.field (show t.get? (ofString "files") = _ from rfl)
      (reads_records reads_file r.files) []).both <|
    (Reads.field (show t.get? (ofString "languages") = _ from rfl)
      (reads_records reads_language r.languages) []).both <|
    (Reads.field (show t.get? (ofString "summary") = _ from rfl) (reads_totals r.summary) []).both <|
    (Reads.field (show t.get? (ofString "unsupportedFiles") = _ from rfl)
      (reads_records reads_path r.unsupported) ["unsupported_files"]).both hchecksum
  refine (hfields.map _).congr ?_
  rw [legible_iff]
  simp only [true_and, implies_true, and_true]

end LineCensus.Report
