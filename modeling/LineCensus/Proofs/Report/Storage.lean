import LineCensus.Report.Storage
import LineCensus.Proofs.Json.Pairs
import LineCensus.Proofs.Json.RoundTrip
import LineCensus.Proofs.Report.Build
import LineCensus.Proofs.Report.Document

namespace LineCensus.Report

open Text Json

/-!
# Stored reports read back

* `counts`, `Legible` — the numbers of a report, none of which has too many digits to be read.
* `texts`, `PairFree` — its paths and the names of its languages, in none of which two surrogates
  make a pair, as they never do in a text of characters.
* `within_toValue` — the document of such a report keeps within the bounds of the JSON reader.
* `load_dump_json` — JSON loses nothing.
-/

/-- The four counts. -/
def tallyCounts (t : Tally Nat) : List Nat := [t.total, t.logical, t.comment, t.empty]

/-- All numbers of a report. -/
def counts (r : Report) : List Nat :=
  r.files.flatMap (fun f => tallyCounts f.tally) ++
    r.languages.flatMap (fun l => l.fileCount :: tallyCounts l.tally) ++
    r.summary.fileCount :: r.summary.languageCount :: tallyCounts r.summary.tally

/-- No number of the report has more digits than are read. -/
def Legible (r : Report) : Prop := ∀ n ∈ r.counts, (showNat n).length ≤ maxDigits

/-- The paths and the names of languages in a report. -/
def texts (r : Report) : List Letters :=
  r.files.flatMap (fun f => [f.path, f.language]) ++ r.languages.map (·.language) ++ r.unsupported

/-- No two surrogates make a pair in a path or in the name of a language.  The reader takes their
    escapes for those of a character. -/
def PairFree (r : Report) : Prop := ∀ s ∈ r.texts, hasSplitPair s = false

instance (r : Report) : Decidable r.PairFree := inferInstanceAs (Decidable (∀ s ∈ _, _))

/-- The texts of a report are those of its records. -/
theorem forall_texts_iff {r : Report} {P : Letters → Prop} :
    (∀ s ∈ r.texts, P s) ↔ (∀ f ∈ r.files, P f.path ∧ P f.language) ∧
      (∀ l ∈ r.languages, P l.language) ∧ ∀ p ∈ r.unsupported, P p := by
  simp only [texts, List.forall_mem_append, List.forall_mem_flatMap, List.forall_mem_map,
    List.forall_mem_cons, List.not_mem_nil, false_implies, implies_true, and_true, and_assoc]

/-- The counts of a file with its path and its language changed. -/
def mapFile (f : Letters → Letters) (t : FileTally) : FileTally :=
  { t with path := f t.path, language := f t.language }

/-- The counts of a language with its name changed. -/
def mapLanguage (f : Letters → Letters) (l : LanguageTally) : LanguageTally :=
  { l with language := f l.language }

/-- The report with its paths and the names of its languages changed. -/
def mapTexts (f : Letters → Letters) (r : Report) : Report :=
  { r with
    files := r.files.map (mapFile f)
    languages := r.languages.map (mapLanguage f)
    unsupported := r.unsupported.map f }

/-- A list is the same if each of its members is. -/
theorem map_eq_self_iff {α : Type} {f : α → α} {as : List α} :
    as.map f = as ↔ ∀ a ∈ as, f a = a := by
  have h := List.map_inj_left (l := as) (f := f) (g := id)
  rwa [List.map_id] at h

/-- So are the counts of a file if its texts are. -/
theorem mapFile_eq_self_iff {f : Letters → Letters} {t : FileTally} :
    mapFile f t = t ↔ f t.path = t.path ∧ f t.language = t.language := by
  obtain ⟨path, language, tally, balanced⟩ := t
  simp only [mapFile, FileTally.mk.injEq, and_true]

/-- So are those of a language. -/
theorem mapLanguage_eq_self_iff {f : Letters → Letters} {l : LanguageTally} :
    mapLanguage f l = l ↔ f l.language = l.language := by
  obtain ⟨language, fileCount, tally⟩ := l
  simp only [mapLanguage, LanguageTally.mk.injEq, and_true]

/-- A report whose texts are changed is the same if none of them is another. -/
theorem mapTexts_eq_self_iff {f : Letters → Letters} {r : Report} :
    r.mapTexts f = r ↔ ∀ s ∈ r.texts, f s = s := by
  obtain ⟨version, generatedAt, files, languages, summary, unsupported, checksum⟩ := r
  simp only [forall_texts_iff, mapTexts, mk.injEq, map_eq_self_iff, mapFile_eq_self_iff,
    mapLanguage_eq_self_iff, true_and, and_true]

/-- The report with the pairs of surrogates in its texts as characters. -/
def joined (r : Report) : Report :=
  { r.mapTexts joinPairs with checksum := r.checksum.map joinPairs }

/-- A report without pairs is the same. -/
theorem joined_of_pairFree {r : Report} (hp : r.PairFree)
    (hchecksum : ∀ c ∈ r.checksum, hasSplitPair c = false) : r.joined = r := by
  have htexts : r.mapTexts joinPairs = r :=
    mapTexts_eq_self_iff.2 fun s hs => joinPairs_of_hasSplitPair (hp s hs)
  have hsum : r.checksum.map joinPairs = r.checksum := by
    cases hc : r.checksum with
    | none => rfl
    | some c => rw [Option.map_some, joinPairs_of_hasSplitPair (hchecksum c hc)]
  rw [joined, htexts, hsum]

/-- Afterwards there are no pairs. -/
theorem pairFree_joined (r : Report) : r.joined.PairFree := by
  refine forall_texts_iff.2 ⟨?_, ?_, ?_⟩
  · exact List.forall_mem_map.2 fun f _ =>
      ⟨hasSplitPair_joinPairs f.path, hasSplitPair_joinPairs f.language⟩
  · exact List.forall_mem_map.2 fun l _ => hasSplitPair_joinPairs l.language
  · exact List.forall_mem_map.2 fun p _ => hasSplitPair_joinPairs p

/-- The entries of the document change like the report. -/
theorem joinedEntries_contentEntries (r : Report) :
    joinedEntries r.contentEntries = r.joined.contentEntries := by
  have hlist {α : Type} (f : α → α) (write : α → Value Letters)
      (h : ∀ a, (write a).joined = write (f a)) (as : List α) :
      (Value.list (as.map write)).joined = .list ((as.map f).map write) := by
    rw [Value.joined, joinedItems_eq_map, List.map_map, List.map_map]
    exact congrArg Value.list (List.map_congr_left fun a _ => h a)
  have hfiles := hlist (mapFile joinPairs) fileValue (fun _ => rfl) r.files
  have hlanguages := hlist (mapLanguage joinPairs) languageValue (fun _ => rfl) r.languages
  have hpaths := hlist joinPairs (fun p => .table [(ofString "path", .text p)]) (fun _ => rfl)
    r.unsupported
  have htext (s : String) : (Value.text (ofString s)).joined = .text (ofString s) := by
    rw [Value.joined, joinPairs_ofString]
  have hsummary : (summaryValue r.summary).joined = summaryValue r.summary := rfl
  simp only [contentEntries, joinedEntries, hfiles, hlanguages, hpaths, htext, hsummary, joined,
    mapTexts]

/-- So does the document. -/
theorem joined_toValue (r : Report) : r.toValue.joined = r.joined.toValue := by
  have hchecksum : (r.checksum.toList.map fun c => (ofString "checksum", Value.text c)).map
      (fun e => (e.1, e.2.joined)) =
        r.joined.checksum.toList.map fun c => (ofString "checksum", Value.text c) := by
    cases hc : r.checksum <;> simp [joined, hc, Value.joined]
  rw [toValue, Value.joined, joinedEntries_eq_map, List.map_append, ← joinedEntries_eq_map,
    joinedEntries_contentEntries, hchecksum, toValue]

/-- **Pairs in JSON.**  A report is written like the one with its pairs as characters. -/
theorem dump_json_joined (r : Report) : r.joined.dump .json = r.dump .json := by
  rw [dump, dump, ← joined_toValue, write_joined rfl]

/-! ### Within the bounds of the reader -/

/-- Names of entries have no surrogates. -/
theorem hasSplitPair_names {entries : List (Letters × Value Letters)} {names : List String}
    (h : entries.map (·.1) = names.map ofString) : ∀ e ∈ entries, hasSplitPair e.1 = false := by
  intro e he
  have hname : e.1 ∈ names.map ofString := h ▸ List.mem_map_of_mem he
  obtain ⟨s, -, hs⟩ := List.mem_map.1 hname
  rw [← hs, hasSplitPair_ofString]

/-- A table whose names are distinct strings is within the bounds if its values are. -/
theorem within_table {room : Nat} {entries : List (Letters × Value Letters)} (names : List String)
    (hnames : entries.map (·.1) = names.map ofString) (hdistinct : names.Nodup)
    (h : ∀ e ∈ entries, Within room e.2) : Within (room + 1) (.table entries) :=
  .table (hnames ▸ hdistinct.map ofString_injective) (hasSplitPair_names hnames) h

/-- The four counts are within the bounds. -/
theorem within_tallyEntries {room : Nat} {t : Tally Nat}
    (h : ∀ n ∈ tallyCounts t, (showNat n).length ≤ maxDigits) :
    ∀ e ∈ tallyEntries Int.ofNat t, Within room e.2 := by
  simp only [tallyCounts, List.forall_mem_cons] at h
  obtain ⟨htotal, hlogical, hcomment, hempty, -⟩ := h
  simp only [tallyEntries, List.forall_mem_cons]
  exact ⟨.int htotal, .int hlogical, .int hcomment, .int hempty, List.forall_mem_nil _⟩

/-- The document of the counts of a file takes one level. -/
theorem within_fileValue {room : Nat} {f : FileTally}
    (htexts : hasSplitPair f.path = false ∧ hasSplitPair f.language = false)
    (h : ∀ n ∈ tallyCounts f.tally, (showNat n).length ≤ maxDigits) :
    Within (room + 1) (fileValue f) :=
  within_table ["path", "language", "total", "logical", "comment", "empty"] rfl (by decide)
    (List.forall_mem_cons.2 ⟨.text htexts.1, List.forall_mem_cons.2
      ⟨.text htexts.2, within_tallyEntries h⟩⟩)

/-- So does that of the counts of a language. -/
theorem within_languageValue {room : Nat} {l : LanguageTally}
    (htext : hasSplitPair l.language = false) (hfiles : (showNat l.fileCount).length ≤ maxDigits)
    (h : ∀ n ∈ tallyCounts l.tally, (showNat n).length ≤ maxDigits) :
    Within (room + 1) (languageValue l) :=
  within_table ["language", "fileCount", "total", "logical", "comment", "empty"] rfl (by decide)
    (List.forall_mem_cons.2 ⟨.text htext, List.forall_mem_cons.2
      ⟨.int hfiles, within_tallyEntries h⟩⟩)

/-- So does that of the totals. -/
theorem within_summaryValue {room : Nat} {s : Totals}
    (hfiles : (showNat s.fileCount).length ≤ maxDigits)
    (hlanguages : (showNat s.languageCount).length ≤ maxDigits)
    (h : ∀ n ∈ tallyCounts s.tally, (showNat n).length ≤ maxDigits) :
    Within (room + 1) (summaryValue s) := by
  refine within_table ["totalFiles", "total", "logical", "comment", "empty", "languagesCount"] rfl
    (by decide) (List.forall_mem_cons.2 ⟨.int hfiles, ?_⟩)
  exact List.forall_mem_append.2
    ⟨within_tallyEntries h, List.forall_mem_singleton.2 (.int hlanguages)⟩

/-- **Within bounds.**  The document of a report takes three levels, and only its numbers and pairs
    of surrogates can be too much for the reader. -/
theorem within_toValue {r : Report} (h : r.Legible) (hp : r.PairFree)
    (hchecksum : ∀ c ∈ r.checksum, hasSplitPair c = false) (room : Nat) :
    Within (room + 3) r.toValue := by
  simp only [Legible, counts, List.forall_mem_append, List.forall_mem_cons,
    List.forall_mem_flatMap] at h
  obtain ⟨⟨hfiles, hlanguages⟩, hfileCount, hlanguageCount, htotals⟩ := h
  obtain ⟨hfileTexts, hlanguageTexts, hpaths⟩ := forall_texts_iff.1 hp
  have hfileList : Within (room + 2) (.list (r.files.map fileValue)) :=
    .list (List.forall_mem_map.2 fun f hf => within_fileValue (hfileTexts f hf) (hfiles f hf))
  have hlanguageList : Within (room + 2) (.list (r.languages.map languageValue)) :=
    .list (List.forall_mem_map.2 fun l hl =>
      within_languageValue (hlanguageTexts l hl) (hlanguages l hl).1 (hlanguages l hl).2)
  have hsummary : Within (room + 2) (summaryValue r.summary) :=
    within_summaryValue hfileCount hlanguageCount htotals
  have hpath (p : Letters) (hp : hasSplitPair p = false) :
      Within (room + 1) (.table [(ofString "path", .text p)]) :=
    within_table ["path"] rfl (by decide) (List.forall_mem_singleton.2 (.text hp))
  have hunsupported : Within (room + 2)
      (.list (r.unsupported.map fun p => .table [(ofString "path", .text p)])) :=
    .list (List.forall_mem_map.2 fun p hp => hpath p (hpaths p hp))
  have hcontent : ∀ e ∈ r.contentEntries, Within (room + 2) e.2 := by
    simp only [contentEntries, List.forall_mem_cons]
    exact ⟨.text (hasSplitPair_ofString _), .text (hasSplitPair_ofString _), hfileList,
      hlanguageList, hsummary, hunsupported, List.forall_mem_nil _⟩
  rw [toValue]
  -- The digest is one key more at the end of the document.
  cases hc : r.checksum with
  | none =>
    refine within_table ["reportFormatVersion", "generatedAt", "files", "languages", "summary",
      "unsupportedFiles"] rfl (by decide) ?_
    exact List.forall_mem_append.2 ⟨hcontent, List.forall_mem_nil _⟩
  | some c =>
    refine within_table ["reportFormatVersion", "generatedAt", "files", "languages", "summary",
      "unsupportedFiles", "checksum"] rfl (by decide) ?_
    exact List.forall_mem_append.2
      ⟨hcontent, List.forall_mem_singleton.2 (.text (hchecksum c hc))⟩

/-! ### JSON -/

/-- A digest is a string. -/
theorem Storable.checksum_pairFree {r : Report} (h : r.Storable) :
    ∀ c ∈ r.checksum, hasSplitPair c = false := by
  intro c hc
  rcases h.checksum with hnone | hsome
  · rw [hnone] at hc
    cases hc
  · rw [hsome, Option.mem_some_iff] at hc
    rw [← hc, hasSplitPair_ofString]

/-- The document of a report is parsed as it was written. -/
theorem parse_dump_json {r : Report} (hl : r.Legible) (hp : r.PairFree)
    (hchecksum : ∀ c ∈ r.checksum, hasSplitPair c = false) :
    parse (r.dump .json) = .ok r.toValue :=
  parse_write (within_toValue hl hp hchecksum 981) .report (List.forall_mem_singleton.2 rfl)

/-- **JSON loses nothing.**  A valid report without a checksum or with the right one, made at a local
    time or at whole minutes from UTC, is read back from its text in every field.  Its paths and
    languages may hold any characters, and surrogates of which no two make a pair; its numbers may
    have any number of digits that are read. -/
theorem load_dump_json {r : Report} (h : r.Storable) (hl : r.Legible) (hp : r.PairFree)
    (now : Moment) : load .json now (r.dump .json) = .ok r := by
  rw [load]
  simp only [parse_dump_json hl hp h.checksum_pairFree, ofValue_toValue h]
  rfl

/-- `load_dump_json` for a signed report with marks, control characters and characters of several
    planes in its paths, with large counts, and with an offset to the west. -/
theorem load_dump_json_signed :
    let n := 123456789012345678901234567890
    let r : Report :=
      { version := "1.10"
        generatedAt := ⟨2024, 2, 29, 23, 59, 58, 120, some (-12600), by decide⟩
        files :=
          [⟨"a \"b\"\\\n\t.py", "Python", ⟨n + 2, n, 1, 1⟩, by decide⟩,
           ⟨"é\x7f/😀.rs", "Rust", ⟨2, 2, 0, 0⟩, by decide⟩]
        languages := [⟨"Python", 1, ⟨n + 2, n, 1, 1⟩⟩, ⟨"Rust", 1, ⟨2, 2, 0, 0⟩⟩]
        summary := ⟨2, ⟨n + 4, n + 2, 1, 1⟩, 2⟩
        unsupported := ["LICENSE"]
        checksum := none }
    let now : Moment := ⟨2026, 1, 2, 3, 4, 5, 0, none, by decide⟩
    r.signed.Storable ∧ r.signed.Legible ∧ r.signed.PairFree ∧
      load .json now (r.signed.dump .json) = .ok r.signed := by
  intro n r now
  have hvalid : r.signed.Valid :=
    valid_iff.2 ⟨by decide +kernel, List.pairwise_pair.2 (by decide +kernel), by decide +kernel,
      by decide +kernel⟩
  have hstorable : r.signed.Storable :=
    ⟨by decide +kernel, hvalid, .inr rfl, by rintro o ⟨⟩; decide⟩
  have hlegible : r.signed.Legible := by
    rw [Legible]
    decide +kernel
  have hpairs : r.signed.PairFree := by decide +kernel
  exact ⟨hstorable, hlegible, hpairs, load_dump_json hstorable hlegible hpairs now⟩

end LineCensus.Report
