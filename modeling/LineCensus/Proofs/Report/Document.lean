import LineCensus.Report.Document
import LineCensus.Proofs.Moment.Stored
import LineCensus.Proofs.Schema.Fields

namespace LineCensus.Report

open Text Schema

/-!
# Documents read back

* `readTally_of`, `readFileEntry_fileValue`, `readLanguage_languageValue`,
  `readTotals_summaryValue` — the records of a report.
* `Storable` — a report that loses nothing in a document.
* `read_toValue`, `ofValue_toValue` — its fields, and the report as a whole, are those of its
  document.
-/

/-! ### Records -/

theorem readTally_of {t : Table (Value Letters) Letters} {c : Tally Nat}
    (htotal : t.get? (ofString "total") = some (.int c.total))
    (hlogical : t.get? (ofString "logical") = some (.int c.logical))
    (hcomment : t.get? (ofString "comment") = some (.int c.comment))
    (hempty : t.get? (ofString "empty") = some (.int c.empty)) : readTally t = .ok c := by
  rw [readTally, field_of_get? htotal (count_ofNat c.total),
    field_of_get? hlogical (count_ofNat c.logical),
    field_of_get? hcomment (count_ofNat c.comment), field_of_get? hempty (count_ofNat c.empty)]
  rfl

/-- The counts of a file are read from their document. -/
theorem readFileEntry_fileValue (f : FileTally) :
    record "FileStat" readFileEntry (fileValue f) = .ok f := by
  rw [fileValue, record, readFileEntry, field_of_get? rfl (text_text f.path),
    field_of_get? rfl (text_text f.language), readTally_of (c := f.tally) rfl rfl rfl rfl]
  exact dif_pos f.balanced

/-- The counts of a language are read from their document. -/
theorem readLanguage_languageValue (l : LanguageTally) :
    record "LanguageSummary" readLanguage (languageValue l) = .ok l := by
  rw [languageValue, record, readLanguage, field_of_get? rfl (text_text l.language),
    field_of_get? rfl (count_ofNat l.fileCount), readTally_of (c := l.tally) rfl rfl rfl rfl]
  rfl

/-- The totals are read from their document. -/
theorem readTotals_summaryValue (s : Totals) :
    record "GlobalSummary" readTotals (summaryValue s) = .ok s := by
  rw [summaryValue, record, readTotals, field_of_get? rfl (count_ofNat s.fileCount),
    readTally_of (c := s.tally) rfl rfl rfl rfl, field_of_get? rfl (count_ofNat s.languageCount)]
  rfl

/-- A path without a language is read from its document. -/
theorem readUnsupported_path (p : Letters) :
    record "UnsupportedFile" readUnsupported (.table [(ofString "path", .text p)]) = .ok p := by
  rw [record, readUnsupported]
  exact field_of_get? rfl (text_text p)

/-! ### Reports -/

/-- A report that loses nothing in a document. -/
structure Storable (r : Report) : Prop where
  /-- The version is two numbers with a dot between them, as in every document. -/
  version : isVersion r.version.toList = true
  /-- The report breaks no rule. -/
  valid : r.Valid
  /-- A checksum is the digest of the report. -/
  checksum : r.checksum = none ∨ r.checksum = some (ofString r.digest)
  /-- The report was made at a local time or at whole minutes from UTC, for a document has no room
      for the seconds of an offset. -/
  offset : ∀ o, r.generatedAt.offset = some o → o % 60 = 0

/-- Nothing speaks against a report that loses nothing. -/
theorem checked_of_storable {r : Report} (h : r.Storable) : r.checked = .ok r := by
  have hchecksum : r.checksumDefect? = none := by
    rcases h.checksum with hc | hc
    · rw [checksumDefect?, hc]
    · rw [checksumDefect?, hc]
      exact if_pos rfl
  have hvalid : r.defect? = none := h.valid
  rw [checked, hvalid, hchecksum]

/-- The moment of a report is read from its text. -/
theorem moment_stored {m : Moment} (h : ∀ o, m.offset = some o → o % 60 = 0) :
    moment (.text (ofString m.stored)) = .ok m := by
  have hstored : string? (ofString m.stored) = some m.stored := string?_ofString m.stored
  rw [moment, hstored]
  simp only [Moment.ofText_stored m h, momentOf]

/-- The fields of a report are read from its document. -/
theorem read_toValue {r : Report} (hversion : isVersion r.version.toList = true)
    (hoffset : ∀ o, r.generatedAt.offset = some o → o % 60 = 0) :
    read (r.contentEntries ++ r.checksum.toList.map fun c => (ofString "checksum", .text c)) =
      .ok r := by
  have hchecksum : fieldOr (r.contentEntries ++ r.checksum.toList.map fun c =>
      (ofString "checksum", Value.text c)) ["checksum"] none (optional text) = .ok r.checksum := by
    cases hc : r.checksum with
    | none => exact fieldOr_of_none rfl _ _
    | some c => exact fieldOr_of_get? (v := .text c) rfl rfl
  -- Every field is written under the first of its names.
  rw [read, hchecksum, field_of_get? rfl (version_text hversion),
    field_of_get? rfl (moment_stored hoffset),
    field_of_get? rfl (list_map fun f _ => readFileEntry_fileValue f),
    field_of_get? rfl (list_map fun l _ => readLanguage_languageValue l),
    field_of_get? rfl (readTotals_summaryValue r.summary),
    field_of_get? rfl (list_map fun p _ => readUnsupported_path p)]
  rfl

/-- **Documents are read back.**  A report that loses nothing in a document is the report of its
    document. -/
theorem ofValue_toValue {r : Report} (h : r.Storable) : ofValue r.toValue = .ok r := by
  rw [toValue, ofValue]
  simp only [read_toValue h.version h.offset, checked_of_storable h]

end LineCensus.Report
