import LineCensus.Report.Document
import LineCensus.Proofs.Schema.Rewriting

namespace LineCensus.Report

open Text Schema

/-!
# Reports in documents that are written in other ways

* `shape` — the fields of a report and of its records with all their spellings.
* `fieldName` — the name of a field, whichever spelling is given.
* `respects_readFileEntry`, `respects_readLanguage`, `respects_readTotals`,
  `respects_readUnsupported` — the records are read alike, however their tables are written.
* `renamed_read` — so is the report.
* `ofValue_rewritten` — a document says the same in any order of its keys: the same report, or the
  same reason why there is none.  With any keys that mean nothing, and in either spelling of a field,
  it says the same up to the spelling of the place where it has an issue.
-/

/-! ### Fields -/

/-- The four counts. -/
def tallySpellings : List (List String × Shape) :=
  [(["total"], .plain), (["logical"], .plain), (["comment"], .plain), (["empty"], .plain)]

/-- The fields of the counts of a file. -/
def fileSpellings : List (List String × Shape) :=
  [(["path"], .plain), (["language"], .plain)] ++ tallySpellings

/-- The fields of the counts of a language. -/
def languageSpellings : List (List String × Shape) :=
  [(["language"], .plain), (["fileCount", "file_count"], .plain)] ++ tallySpellings

/-- The fields of the totals. -/
def totalsSpellings : List (List String × Shape) :=
  [(["totalFiles", "total_files"], .plain), (["languagesCount", "languages_count"], .plain)] ++
    tallySpellings

/-- The fields of a file without a language. -/
def unsupportedSpellings : List (List String × Shape) := [(["path"], .plain)]

/-- The fields of a report. -/
def reportSpellings : List (List String × Shape) :=
  [(["reportFormatVersion", "report_format_version"], .plain),
   (["generatedAt", "generated_at"], .plain),
   (["files"], .items (.record fileSpellings)),
   (["languages"], .items (.record languageSpellings)),
   (["summary"], .record totalsSpellings),
   (["unsupportedFiles", "unsupported_files"], .items (.record unsupportedSpellings)),
   (["checksum"], .plain)]

/-- What is known of the document of a report. -/
def shape : Shape := .record reportSpellings

/-- The spellings of all fields. -/
def spellings : List (List String) :=
  (reportSpellings ++ fileSpellings ++ languageSpellings ++ totalsSpellings ++
    unsupportedSpellings).map (·.1)

/-- The name of the field that a key is a spelling of: its first one. -/
def fieldName (key : String) : String :=
  ((spellings.find? fun keys => keys.contains key).bind (·.head?)).getD key

/-- All spellings of a field are spellings of one name. -/
theorem fieldName_eq : ∀ keys ∈ spellings, ∀ key ∈ keys, ∀ key' ∈ keys,
    fieldName key = fieldName key' := by decide

section Respects

variable {name : String → String}

/-! ### Single values -/

/-- A text is read alike. -/
theorem respects_text : Respects name .plain text := respects_scalar (fun _ => rfl) fun _ => rfl

/-- So is a count. -/
theorem respects_count : Respects name .plain count := respects_scalar (fun _ => rfl) fun _ => rfl

/-- So is a version. -/
theorem respects_version : Respects name .plain Schema.version :=
  respects_scalar (fun _ => rfl) fun _ => rfl

/-- So is a moment. -/
theorem respects_moment : Respects name .plain moment := respects_scalar (fun _ => rfl) fun _ => rfl

/-- So is a checksum, which may be absent. -/
theorem respects_checksum : Respects name .plain (optional text) :=
  respects_scalar (fun _ => rfl) fun _ => rfl

/-! ### Records -/

section Records

variable {t u : Table (Value Letters) Letters} (ht : DistinctKeys (.table t))
include ht

/-- The four counts are read alike where their fields are the same. -/
theorem renamed_readTally (h : ∀ f ∈ tallySpellings, SameField name t u f) :
    renamed name (readTally t) = renamed name (readTally u) := by
  simp only [tallySpellings, List.forall_mem_cons] at h
  obtain ⟨htotal, hlogical, hcomment, hempty, -⟩ := h
  simp only [readTally, renamed_map, renamed_both]
  rw [renamed_field respects_count ht htotal, renamed_field respects_count ht hlogical,
    renamed_field respects_count ht hcomment, renamed_field respects_count ht hempty]

omit ht in
/-- The counts of a file are read field by field before they are added up. -/
theorem readFileEntry_eq (t : Table (Value Letters) Letters) : readFileEntry t =
    both (field t ["path"] text) (both (field t ["language"] text) (readTally t)) >>=
      fun p => balancedFile p.1 p.2.1 p.2.2 := by
  rw [readFileEntry]
  cases both (field t ["path"] text) (both (field t ["language"] text) (readTally t)) <;> rfl

/-- So are the counts of a file, and the complaint about them if they do not add up. -/
theorem renamed_readFileEntry (h : ∀ f ∈ fileSpellings, SameField name t u f) :
    renamed name (readFileEntry t) = renamed name (readFileEntry u) := by
  rw [fileSpellings, List.forall_mem_append] at h
  simp only [List.forall_mem_cons] at h
  obtain ⟨⟨hpath, hlanguage, -⟩, htally⟩ := h
  rw [readFileEntry_eq, readFileEntry_eq]
  refine renamed_bind ?_
  rw [renamed_both, renamed_both, renamed_both, renamed_both,
    renamed_field respects_text ht hpath, renamed_field respects_text ht hlanguage,
    renamed_readTally ht htally]

/-- So are the counts of a language. -/
theorem renamed_readLanguage (h : ∀ f ∈ languageSpellings, SameField name t u f) :
    renamed name (readLanguage t) = renamed name (readLanguage u) := by
  rw [languageSpellings, List.forall_mem_append] at h
  simp only [List.forall_mem_cons] at h
  obtain ⟨⟨hlanguage, hcount, -⟩, htally⟩ := h
  simp only [readLanguage, renamed_map, renamed_both]
  rw [renamed_field respects_text ht hlanguage, renamed_field respects_count ht hcount,
    renamed_readTally ht htally]

/-- So are the totals. -/
theorem renamed_readTotals (h : ∀ f ∈ totalsSpellings, SameField name t u f) :
    renamed name (readTotals t) = renamed name (readTotals u) := by
  rw [totalsSpellings, List.forall_mem_append] at h
  simp only [List.forall_mem_cons] at h
  obtain ⟨⟨hfiles, hlanguages, -⟩, htally⟩ := h
  simp only [readTotals, renamed_map, renamed_both]
  rw [renamed_field respects_count ht hfiles, renamed_readTally ht htally,
    renamed_field respects_count ht hlanguages]

/-- So is a file without a language. -/
theorem renamed_readUnsupported (h : ∀ f ∈ unsupportedSpellings, SameField name t u f) :
    renamed name (readUnsupported t) = renamed name (readUnsupported u) :=
  renamed_field respects_text ht (List.forall_mem_singleton.1 h)

end Records

/-- The counts of a file are read alike. -/
theorem respects_readFileEntry :
    Respects name (.record fileSpellings) (record "FileStat" readFileEntry) :=
  respects_record (by decide) "FileStat" fun _ _ => renamed_readFileEntry

/-- So are those of a language. -/
theorem respects_readLanguage :
    Respects name (.record languageSpellings) (record "LanguageSummary" readLanguage) :=
  respects_record (by decide) "LanguageSummary" fun _ _ => renamed_readLanguage

/-- So are the totals. -/
theorem respects_readTotals :
    Respects name (.record totalsSpellings) (record "GlobalSummary" readTotals) :=
  respects_record (by decide) "GlobalSummary" fun _ _ => renamed_readTotals

/-- So is the path of a file without a language. -/
theorem respects_readUnsupported :
    Respects name (.record unsupportedSpellings) (record "UnsupportedFile" readUnsupported) :=
  respects_record (by decide) "UnsupportedFile" fun _ _ => renamed_readUnsupported

/-! ### Reports -/

/-- **Reports.**  They are read alike where the fields are the same. -/
theorem renamed_read {t u : Table (Value Letters) Letters} (ht : DistinctKeys (.table t))
    (h : ∀ f ∈ reportSpellings, SameField name t u f) :
    renamed name (read t) = renamed name (read u) := by
  simp only [reportSpellings, List.forall_mem_cons] at h
  obtain ⟨hversion, hmoment, hfiles, hlanguages, hsummary, hunsupported, hchecksum, -⟩ := h
  simp only [read, renamed_map, renamed_both]
  rw [renamed_field respects_version ht hversion, renamed_field respects_moment ht hmoment,
    renamed_field (respects_list respects_readFileEntry) ht hfiles,
    renamed_field (respects_list respects_readLanguage) ht hlanguages,
    renamed_field respects_readTotals ht hsummary,
    renamed_field (respects_list respects_readUnsupported) ht hunsupported,
    renamed_fieldOr respects_checksum ht hchecksum]

/-- What is no table is no report. -/
theorem ofValue_of_not_table {v : Value Letters} (h : ¬ ∃ t, v = .table t) :
    ofValue v = .error .notTable := by
  cases v with
  | table t => exact absurd ⟨t, rfl⟩ h
  | _ => rfl

/-- A refusal with the keys on the way to an issue under other names. -/
def Refusal.rename (name : String → String) : Refusal → Refusal
  | .issue i => .issue (i.rename name)
  | e => e

/-- With the same names a refusal is the same. -/
theorem refusal_rename_id (e : Refusal) : e.rename id = e := by
  cases e with
  | issue i => rw [Refusal.rename, issue_rename_id]
  | _ => rfl

/-- The first issue has its names changed like all others. -/
theorem firstIssue_rename (issues : List Issue) :
    firstIssue (issues.map (Issue.rename name)) = (firstIssue issues).rename name := by
  cases issues <;> rfl

/-- **Documents.**  They give the same report, or are refused for the same reason. -/
theorem rename_ofValue {v w : Value Letters} (h : Rewritten name shape v w) (hv : DistinctKeys v) :
    (ofValue v).mapError (Refusal.rename name) = (ofValue w).mapError (Refusal.rename name) := by
  by_cases htable : ∃ t, v = .table t
  · obtain ⟨u, rfl⟩ := h.exists_table_iff.1 htable
    obtain ⟨t, rfl⟩ := htable
    have hread := respects_record (by decide) "Report" (fun _ _ => renamed_read) _ _ h hv
    simp only [record] at hread
    rw [ofValue, ofValue]
    -- The records are read alike up to names, so both are reports or both have issues.
    cases hr : read t with
    | ok r =>
      cases hr' : read u with
      | ok r' =>
        rw [hr, hr'] at hread
        cases hread
        rfl
      | error issues =>
        rw [hr, hr'] at hread
        cases hread
    | error issues =>
      cases hr' : read u with
      | ok r' =>
        rw [hr, hr'] at hread
        cases hread
      | error issues' =>
        rw [hr, hr'] at hread
        have hissues := Except.error.inj hread
        simp only [Except.mapError, Refusal.rename, ← firstIssue_rename, hissues]
  · rw [ofValue_of_not_table htable, ofValue_of_not_table (mt h.exists_table_iff.2 htable)]

end Respects

/-- Refusals that are the same up to the spelling of fields refuse for the same reason. -/
theorem defect_of_rename {v w : Value Letters} {d : Defect}
    (h : (ofValue v).mapError (Refusal.rename fieldName) =
      (ofValue w).mapError (Refusal.rename fieldName))
    (hv : ofValue v = .error (.defect d)) : ofValue w = .error (.defect d) := by
  rw [hv] at h
  cases hw : ofValue w with
  | ok r =>
    rw [hw] at h
    cases h
  | error e =>
    rw [hw] at h
    cases e <;> simp_all [Except.mapError, Refusal.rename]

/-- **Other ways to write a report.**  If no table of a document has a key twice, the document gives
    the same report, or the same reason why there is none, in whichever order the entries of its
    tables stand.  Nor does it matter for the report which keys that mean nothing are added or left
    out, and in which way a field is spelled that is spelled in one way only, nor for a defect of the
    report, such as a checksum that is not right; an issue is the same and at the same place, which
    is named by the spelling in use. -/
theorem ofValue_rewritten (v : Value Letters) (hv : DistinctKeys v) :
    (∀ w, Reordered v w → ofValue w = ofValue v) ∧
      ∀ w, Rewritten fieldName shape v w →
        (∀ r, ofValue w = .ok r ↔ ofValue v = .ok r) ∧
        (∀ d, ofValue w = .error (.defect d) ↔ ofValue v = .error (.defect d)) ∧
        (ofValue w).mapError (Refusal.rename fieldName) =
          (ofValue v).mapError (Refusal.rename fieldName) := by
  refine ⟨fun w h => ?_, fun w h => ?_⟩
  · have hrewritten : Rewritten id shape v w := h.rewritten shape
    have hsame := rename_ofValue hrewritten hv
    have hid : Refusal.rename id = id := funext refusal_rename_id
    rw [hid] at hsame
    cases hvalue : ofValue v <;> cases hvalue' : ofValue w <;>
      simp_all [Except.mapError]
  · have hsame := rename_ofValue h hv
    refine ⟨fun r => ?_, fun d => ⟨?_, defect_of_rename hsame⟩, hsame.symm⟩
    · rw [← mapError_eq_ok (f := Refusal.rename fieldName), ← hsame, mapError_eq_ok]
    · exact defect_of_rename hsame.symm

/-- `ofValue_rewritten` for a document with its entries and those of a file in another order, and
    for this one with another spelling of the version, which is none, and a key that means
    nothing. -/
theorem ofValue_rewritten_respelled :
    let file : Entries := [("path", .text "a.c"), ("language", .text "C")]
    let v : Value Letters :=
      .table [("reportFormatVersion", .text "1"), ("files", .list [.table file])]
    let w : Value Letters := .table
      [("files", .list [.table file.reverse]), ("reportFormatVersion", .text "1")]
    let w' : Value Letters := .table [("files", .list [.table file.reverse]),
      ("report_format_version", .text "1"), ("note", .null)]
    DistinctKeys v ∧ Reordered v w ∧ Rewritten fieldName shape v w' ∧
      ofValue w = ofValue v ∧ (∀ d, ofValue w' ≠ .error (.defect d)) ∧
      ofValue w' = .error (.issue ⟨[.key "report_format_version"], .notVersion⟩) ∧
      (ofValue v).mapError (Refusal.rename fieldName) =
        .error (.issue ⟨[.key "reportFormatVersion"], .notVersion⟩) := by
  intro file v w w'
  have hfile : DistinctKeys (.table file) := by
    refine .table (by decide) ?_
    simp only [file, List.forall_mem_cons]
    exact ⟨.text "a.c", .text "C", List.forall_mem_nil _⟩
  have hv : DistinctKeys v := by
    refine .table (show [ofString "reportFormatVersion", "files"].Nodup by decide) ?_
    simp only [List.forall_mem_cons]
    exact ⟨.text "1", .list (List.forall_mem_singleton.2 hfile), List.forall_mem_nil _⟩
  have hfiles : Reordered (.list [.table file]) (.list [.table file.reverse]) :=
    @Reordered.item [] [] _ _ (.entries (List.reverse_perm file).symm)
  have hw : Reordered v w :=
    .trans (.entries (List.Perm.swap _ _ [])) (@Reordered.entry [] _ _ _ _ hfiles)
  have hversion : Rewritten fieldName shape w (.table [("files", .list [.table file.reverse]),
      ("report_format_version", .text "1")]) :=
    @Rewritten.respell _ reportSpellings _ [_] [] _ _ _ List.mem_cons_self (by decide) (by decide)
      (fieldName_eq _ List.mem_cons_self _ (by decide) _ (by decide)) (by decide)
  have hw' : Rewritten fieldName shape v w' :=
    (hw.rewritten shape).trans (hversion.trans (.unknown (by decide) (by decide) .null))
  obtain ⟨hreordered, hrewritten⟩ := ofValue_rewritten v hv
  obtain ⟨-, hdefect, hsame⟩ := hrewritten w' hw'
  have hissue : ofValue w' = .error (.issue ⟨[.key "report_format_version"], .notVersion⟩) := by
    rfl
  refine ⟨hv, hw, hw', hreordered w hw, fun d hd => ?_, hissue, ?_⟩
  · rw [hissue] at hd
    cases hd
  · rw [← hsame, hissue]
    rfl

end LineCensus.Report
