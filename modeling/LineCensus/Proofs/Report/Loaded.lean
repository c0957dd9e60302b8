import LineCensus.Report.Storage
import LineCensus.Proofs.Json.Bounds
import LineCensus.Proofs.Moment.Minutes
import LineCensus.Proofs.Report.Sheet
import LineCensus.Proofs.Value

namespace LineCensus.Report

open Text Schema

/-!
# Loaded reports

* `bounded_toValue` — elements hold no numbers, so their values are bounded.
* `legible_iff` — the numbers of a report, record by record.
* `gives_read` — the fields of a report that is read from a bounded document.
* `checked_eq_ok`, `storable_of_ofValue` — a report that passes breaks no rule.
* `load_json_dump` — a report that is stored as JSON and loaded is checked, and nothing else.
* `eq_build_of_load`, `storable_of_load` — the report of a sheet is built, that of a document loses
  nothing in one.
* `reload_load` — which loaded reports are valid, and what becomes of them when they are stored as
  JSON and loaded again.
-/

/-! ### Documents of elements -/

mutual

/-- The value of an element holds no numbers. -/
theorem bounded_spelled_toValue (containers : Xml.Containers) (e : Xml.Element) :
    Bounded (e.toValue containers).spelled := by
  obtain ⟨tag, text, children⟩ := e
  rw [Xml.Element.toValue]
  split
  · rw [Value.spelled, spelledItems_eq_map]
    exact .list (List.forall_mem_map.2 (bounded_spelled_toItems containers children))
  · split
    · exact .text _
    · rw [Value.spelled, spelledEntries_eq_map]
      refine .table (List.forall_mem_map.2 fun e he => ?_)
      exact bounded_spelled_toEntries containers children e (Table.mem_of_mem_ofList he)

/-- Nor do the items in a container. -/
theorem bounded_spelled_toItems (containers : Xml.Containers) (es : List Xml.Element) :
    ∀ v ∈ Xml.toItems containers es, Bounded v.spelled := by
  cases es with
  | nil => exact List.forall_mem_nil _
  | cons e es =>
    exact List.forall_mem_cons.2
      ⟨bounded_spelled_toValue containers e, bounded_spelled_toItems containers es⟩

/-- Nor do the entries of a table. -/
theorem bounded_spelled_toEntries (containers : Xml.Containers) (es : List Xml.Element) :
    ∀ e ∈ Xml.toEntries containers es, Bounded e.2.spelled := by
  cases es with
  | nil => exact List.forall_mem_nil _
  | cons e es =>
    exact List.forall_mem_cons.2
      ⟨bounded_spelled_toValue containers e, bounded_spelled_toEntries containers es⟩

end

/-! ### Records -/

/-- The counts of a language are short. -/
def ShortLanguage (l : LanguageTally) : Prop := Short l.fileCount ∧ ShortTally l.tally

/-- The totals are short. -/
def ShortTotals (s : Totals) : Prop :=
  Short s.fileCount ∧ Short s.languageCount ∧ ShortTally s.tally

/-- The numbers of a report are those of its records. -/
theorem legible_iff {r : Report} :
    r.Legible ↔ (∀ f ∈ r.files, ShortTally f.tally) ∧ (∀ l ∈ r.languages, ShortLanguage l) ∧
      ShortTotals r.summary := by
  simp only [Legible, counts, List.forall_mem_append, List.forall_mem_cons,
    List.forall_mem_flatMap, and_assoc]
  exact Iff.rfl

variable {t : Table (Value Letters) Letters}

/-- The counts that are read are short. -/
theorem gives_readTally (h : ∀ e ∈ t, Bounded e.2) : Gives (readTally t) ShortTally := by
  have hcount : ∀ e ∈ t, Gives (count e.2) Short := fun e he => gives_count (h e he)
  have hfields := (Gives.field hcount ["total"]).both <| (Gives.field hcount ["logical"]).both <|
    (Gives.field hcount ["comment"]).both (Gives.field hcount ["empty"])
  exact (hfields.imp fun c hc => shortTally_iff.2 hc).map

/-- So are those of a file. -/
theorem gives_readFileEntry (h : ∀ e ∈ t, Bounded e.2) :
    Gives (readFileEntry t) fun f => ShortTally f.tally := by
  have hfields := (Gives.trivial (field t ["path"] text)).both <|
    (Gives.trivial (field t ["language"] text)).both (gives_readTally h)
  intro f hf
  unfold readFileEntry at hf
  split at hf
  · cases hf
  · next path language tally hread =>
    have hshort := hfields _ hread
    unfold balancedFile at hf
    split at hf
    · cases hf
      exact hshort.2.2
    · cases hf

/-- So are those of a language. -/
theorem gives_readLanguage (h : ∀ e ∈ t, Bounded e.2) : Gives (readLanguage t) ShortLanguage := by
  have hcount : ∀ e ∈ t, Gives (count e.2) Short := fun e he => gives_count (h e he)
  have hfields := (Gives.trivial (field t ["language"] text)).both <|
    (Gives.field hcount ["fileCount", "file_count"]).both (gives_readTally h)
  exact (hfields.imp fun l hl => hl.2).map

/-- So are the totals. -/
theorem gives_readTotals (h : ∀ e ∈ t, Bounded e.2) : Gives (readTotals t) ShortTotals := by
  have hcount : ∀ e ∈ t, Gives (count e.2) Short := fun e he => gives_count (h e he)
  have hfields := (Gives.field hcount ["totalFiles", "total_files"]).both <|
    (gives_readTally h).both (Gives.field hcount ["languagesCount", "languages_count"])
  exact (hfields.imp fun s hs => ⟨hs.1, hs.2.2, hs.2.1⟩).map

/-- What holds of a report as its document spells it, valid or not. -/
structure WellRead (r : Report) : Prop where
  version : isVersion r.version.toList = true
  minutes : r.generatedAt.WholeMinutes
  legible : r.Legible

/-- **Reports.**  A report that is read from a bounded document has a version, was made at whole
    minutes from UTC, and its numbers can be read again. -/
theorem gives_read (h : ∀ e ∈ t, Bounded e.2) : Gives (read t) WellRead := by
  have hfiles : ∀ e ∈ t, Gives (list (record "FileStat" readFileEntry) e.2) _ :=
    fun e he => gives_records (fun t => gives_readFileEntry) "FileStat" (h e he)
  have hlanguages : ∀ e ∈ t, Gives (list (record "LanguageSummary" readLanguage) e.2) _ :=
    fun e he => gives_records (fun t => gives_readLanguage) "LanguageSummary" (h e he)
  have hsummary : ∀ e ∈ t, Gives (record "GlobalSummary" readTotals e.2) _ :=
    fun e he => gives_record (fun t => gives_readTotals) "GlobalSummary" (h e he)
  have hfields :=
    (Gives.field (fun e _ => gives_version e.2)
      ["reportFormatVersion", "report_format_version"] (t := t)).both <|
    (Gives.field (fun e _ => Moment.gives_moment e.2) ["generatedAt", "generated_at"]
      (t := t)).both <|
    (Gives.field hfiles ["files"]).both <| (Gives.field hlanguages ["languages"]).both <|
    (Gives.field hsummary ["summary"]).both <|
    (Gives.trivial (field t ["unsupportedFiles", "unsupported_files"]
      (list (record "UnsupportedFile" readUnsupported)))).both
    (Gives.trivial (fieldOr t ["checksum"] none (optional text)))
  refine Gives.map (hfields.imp ?_)
  rintro ⟨version, generatedAt, files, languages, summary, unsupported, checksum⟩
    ⟨hversion, hminutes, hfiles, hlanguages, hsummary, -, -⟩
  exact ⟨hversion, hminutes, legible_iff.2 ⟨hfiles, hlanguages, hsummary⟩⟩

/-! ### Whole reports -/

/-- A report that passes is the one that was to be checked. -/
theorem checked_eq_ok {r r' : Report} (h : r.checked = .ok r') :
    r' = r ∧ r.Valid ∧ (r.checksum = none ∨ r.checksum = some (ofString r.digest)) := by
  unfold checked at h
  split at h
  · cases h
  · next hvalid =>
    split at h
    · cases h
    · next hchecksum =>
      refine ⟨(Except.ok.inj h).symm, hvalid, ?_⟩
      unfold checksumDefect? at hchecksum
      split at hchecksum
      · next hnone => exact .inl hnone
      · next stored hsome =>
        split at hchecksum
        · next heq => exact .inr (hsome.trans (congrArg some heq))
        · cases hchecksum

/-- A report that is loaded from a document loses nothing in one. -/
theorem storable_of_ofValue {v : Value Letters} (hv : Bounded v) {r : Report}
    (h : ofValue v = .ok r) :
    r.Storable ∧ r.Legible := by
  unfold ofValue at h
  split at h
  · next t =>
    split at h
    · cases h
    · next r' hread =>
      obtain ⟨rfl, hvalid, hchecksum⟩ := checked_eq_ok h
      cases hv with
      | table hentries =>
        have hwell := gives_read hentries _ hread
        exact ⟨⟨hwell.version, hvalid, hchecksum, hwell.minutes⟩, hwell.legible⟩
  · cases h

/-- Pairs of surrogates do not matter to how a report is read. -/
theorem WellRead.joined {r : Report} (h : r.WellRead) : r.joined.WellRead := by
  have hcounts : r.joined.counts = r.counts := by
    simp only [counts, Report.joined, mapTexts, List.flatMap_map]
    rfl
  refine ⟨h.version, h.minutes, ?_⟩
  rw [Legible, hcounts]
  exact h.legible

/-- **Checked again.**  A report that is stored as JSON and loaded is checked, with the pairs of
    surrogates in its texts as characters, and nothing else. -/
theorem load_json_dump {r : Report} (h : r.WellRead) (later : Moment) :
    load .json later (r.dump .json) = r.joined.checked.mapError .document := by
  have hvalue : ofValue r.joined.toValue = r.joined.checked := by
    rw [toValue, ofValue]
    simp only [read_toValue h.joined.version h.joined.minutes]
  have hchecksum : ∀ c ∈ r.joined.checksum, hasSplitPair c = false := by
    intro c hc
    obtain ⟨c', -, rfl⟩ := Option.map_eq_some_iff.1 hc
    exact hasSplitPair_joinPairs c'
  rw [← dump_json_joined, load]
  simp only [parse_dump_json h.joined.legible (pairFree_joined r) hchecksum, hvalue]

/-- The report of a sheet is loaded as it is read. -/
theorem load_csv_eq_ok {now : Moment} {text : Letters} {r : Report} :
    load .csv now text = .ok r ↔ ofSheet text now = .ok r := mapError_eq_ok

/-- The report of a sheet is built from its entries. -/
theorem eq_build_of_load {now : Moment} {text : Letters} {r : Report}
    (h : load .csv now text = .ok r) : ∃ files unsupported, r = build files unsupported now := by
  have hsheet : ofSheet text now = .ok r := load_csv_eq_ok.1 h
  unfold ofSheet at hsheet
  split at hsheet
  next rows stray hrows =>
  dsimp only at hsheet
  split at hsheet
  · cases hsheet
  · split at hsheet
    · cases hsheet
    · split at hsheet
      · cases hsheet
      · split at hsheet
        · cases hsheet
        · cases hsheet
          exact ⟨_, _, rfl⟩

/-- The report of an XML document is that of its root. -/
theorem ofXml_eq_ok {text : Letters} {r : Report} (h : ofXml text = .ok r) :
    ∃ s root, text = letters s ∧ Xml.parse? s = some root ∧
      ofValue (root.toValue reportContainers).spelled = .ok r := by
  unfold ofXml at h
  split at h
  · cases h
  · next s hs =>
    split at h
    · cases h
    · next root hroot =>
      unfold ofElement at h
      split at h
      · cases h
      · split at h
        · cases h
        · exact ⟨s, root, chars?_eq_some_iff.1 hs, hroot, mapError_eq_ok.1 h⟩

/-- A report that is loaded from a document loses nothing in one. -/
theorem storable_of_load {format : Format} (hformat : format ≠ .csv) {now : Moment} {text : Letters}
    {r : Report} (h : load format now text = .ok r) : r.Storable ∧ r.Legible := by
  unfold load at h
  cases format with
  | csv => exact absurd rfl hformat
  | json =>
    dsimp only at h
    split at h
    · cases h
    · next v hparse =>
      exact storable_of_ofValue (Json.bounded_parse hparse) (mapError_eq_ok.1 h)
  | xml =>
    dsimp only at h
    obtain ⟨s, root, -, -, hvalue⟩ := ofXml_eq_ok h
    exact storable_of_ofValue (bounded_spelled_toValue _ root) hvalue

/-- **Loaded reports.**  A report that is loaded from a document breaks no rule, and one that is
    loaded from a sheet breaks none exactly if it has no path twice.  When a loaded report is stored as
    JSON and loaded again, it is checked with the pairs of surrogates in its texts as characters.  So
    a report without such pairs is the same if it breaks no rule, and it is refused for its repeated
    paths otherwise.  A sheet is as old as the moment at which it is loaded, which has to be whole
    minutes from UTC then, and adds counts up, so that their sums may have too many digits to be
    read. -/
theorem reload_load {format : Format} {now : Moment} {text : Letters} {r : Report}
    (h : load format now text = .ok r) :
    (r.Valid ↔ (format = .csv → (r.files.map (·.path)).Nodup)) ∧
      ((format = .csv → now.WholeMinutes ∧ r.Legible) → ∀ later,
        load .json later (r.dump .json) = r.joined.checked.mapError .document ∧
          (r.PairFree →
            (r.Valid → load .json later (r.dump .json) = .ok r) ∧
              (¬r.Valid → load .json later (r.dump .json) =
                .error (.document (.defect .duplicateFiles))))) := by
  by_cases hformat : format = .csv
  · -- A sheet is built, so its order, its languages and its totals are right.
    subst hformat
    obtain ⟨files, unsupported, rfl⟩ := eq_build_of_load h
    have hpaths : ((build files unsupported now).files.map (·.path)).Nodup ↔
        (files.map (·.path)).Nodup := ((sortOn_perm _ files).map _).nodup_iff
    refine ⟨?_, fun hsheet later => ?_⟩
    · rw [valid_build_iff, ← hpaths]
      exact ⟨fun hn _ => hn, fun hn => hn rfl⟩
    obtain ⟨hminutes, hlegible⟩ := hsheet rfl
    have hwell : (build files unsupported now).WellRead :=
      ⟨show isVersion formatVersion.toList = true by decide, hminutes, hlegible⟩
    refine ⟨load_json_dump hwell later, fun hpairs => ?_⟩
    rw [load_json_dump hwell, joined_of_pairFree hpairs (by rintro c ⟨⟩)]
    refine ⟨fun hvalid => ?_, fun hinvalid => ?_⟩
    · rw [checked_of_storable ⟨hwell.version, hvalid, .inl rfl, hminutes⟩]
      rfl
    · rw [checked, defect?_build (fun hn => hinvalid (valid_build_iff.2 hn))]
      rfl
  · -- A document was checked when it was loaded.
    obtain ⟨hstorable, hlegible⟩ := storable_of_load hformat h
    have hwell : r.WellRead := ⟨hstorable.version, hstorable.offset, hlegible⟩
    refine ⟨iff_of_true hstorable.valid fun hcsv => absurd hcsv hformat, fun _ later => ?_⟩
    refine ⟨load_json_dump hwell later, fun hpairs => ?_⟩
    refine ⟨fun _ => ?_, fun hinvalid => absurd hstorable.valid hinvalid⟩
    rw [load_json_dump hwell, joined_of_pairFree hpairs hstorable.checksum_pairFree,
      checked_of_storable hstorable]
    rfl

/-- A report that is what its files give is loaded from its sheet. -/
theorem load_dump_csv {r : Report} {now : Moment} (hbuild : build r.files r.unsupported now = r)
    (hreturns : ∀ e ∈ r.entries, ReturnFree e) (hshort : ∀ f ∈ r.files, ShortTally f.tally) :
    load .csv now (r.dump .csv) = .ok r := by
  rw [load_csv_eq_ok, (reads_ofSheet hreturns now).eq_ok hshort, hbuild]

/-- `reload_load` for a sheet with two files and a file without a language. -/
theorem reload_load_sheet :
    let text := "kind,path,language,total,logical,comment,empty\nfile,a.c,C,2,2,0,0\n" ++
      "file,b.py,Python,3,1,1,1\nunsupported,LICENSE,,,,,\n"
    let now : Moment := ⟨2026, 1, 2, 3, 4, 5, 678901, some 0, by decide⟩
    let r : Report :=
      { version := "1.0"
        generatedAt := now
        files :=
          [⟨"a.c", "C", ⟨2, 2, 0, 0⟩, by decide⟩, ⟨"b.py", "Python", ⟨3, 1, 1, 1⟩, by decide⟩]
        languages := [⟨"C", 1, ⟨2, 2, 0, 0⟩⟩, ⟨"Python", 1, ⟨3, 1, 1, 1⟩⟩]
        summary := ⟨2, ⟨5, 3, 1, 1⟩, 2⟩
        unsupported := ["LICENSE"]
        checksum := none }
    load .csv now text = .ok r ∧ r.Valid ∧ load .json now (r.dump .json) = .ok r := by
  intro text now r
  have hbuild : build r.files r.unsupported now = r :=
    build_self rfl (List.pairwise_pair.2 (by decide +kernel)) (by decide +kernel)
      (by decide +kernel) (List.pairwise_singleton _ _) rfl
  have htext : text = r.dump .csv := by decide +kernel
  have hshort : ∀ f ∈ r.files, ShortTally f.tally := by decide +kernel
  have hlegible : r.Legible := by
    rw [Legible]
    decide +kernel
  have hload : load .csv now text = .ok r :=
    htext ▸ load_dump_csv hbuild (by decide +kernel) hshort
  have hreload := reload_load hload
  have hvalid : r.Valid := hreload.1.2 fun _ => by decide +kernel
  have hpairs : r.PairFree := by decide +kernel
  have hdump := hreload.2 (fun _ => ⟨by rintro o ⟨⟩; rfl, hlegible⟩) now
  exact ⟨hload, hvalid, (hdump.2 hpairs).1 hvalid⟩

/-- **A sheet may repeat a path.**  Its report is loaded, breaks a rule, and is refused when it is
    stored as JSON and loaded again. -/
theorem load_repeated_path :
    let text := "kind,path,language,total,logical,comment,empty\nfile,a,C,1,1,0,0\n" ++
      "file,a,C,2,2,0,0\n"
    let now : Moment := ⟨2026, 1, 2, 3, 4, 5, 678901, some 0, by decide⟩
    ∃ r, load .csv now text = .ok r ∧ ¬r.Valid ∧
      load .json now (r.dump .json) = .error (.document (.defect .duplicateFiles)) := by
  intro text now
  let r : Report :=
    { version := "1.0"
      generatedAt := now
      files := [⟨"a", "C", ⟨1, 1, 0, 0⟩, by decide⟩, ⟨"a", "C", ⟨2, 2, 0, 0⟩, by decide⟩]
      languages := [⟨"C", 2, ⟨3, 3, 0, 0⟩⟩]
      summary := ⟨2, ⟨3, 3, 0, 0⟩, 1⟩
      unsupported := []
      checksum := none }
  have hbuild : build r.files r.unsupported now = r :=
    build_self rfl (List.pairwise_pair.2 (by decide +kernel)) (by decide +kernel)
      (by decide +kernel) List.Pairwise.nil rfl
  have htext : text = r.dump .csv := by decide +kernel
  have hshort : ∀ f ∈ r.files, ShortTally f.tally := by decide +kernel
  have hlegible : r.Legible := by
    rw [Legible]
    decide +kernel
  have hrepeated : ¬(r.files.map (·.path)).Nodup := by decide +kernel
  have hdefect : r.defect? = some .duplicateFiles := hbuild ▸ defect?_build hrepeated r.unsupported now
  refine ⟨r, htext ▸ load_dump_csv hbuild (by decide +kernel) hshort, ?_, ?_⟩
  · rw [Valid, hdefect]
    exact Option.some_ne_none _
  · have hwell : r.WellRead := ⟨by decide +kernel, by rintro o ⟨⟩; rfl, hlegible⟩
    rw [load_json_dump hwell, joined_of_pairFree (by decide +kernel) (by rintro c ⟨⟩), checked,
      hdefect]
    rfl

end LineCensus.Report
