import LineCensus.Proofs.Report.Build
import LineCensus.Proofs.Report.Comparison

namespace LineCensus.Comparison

open Text

/-!
# Which files a comparison names

Of two valid reports, which have every path once:

* `mem_newFiles_iff`, `mem_removedFiles_iff` — the paths that only one of them has.
* `mem_modifiedFiles_iff` — the changes of the files that both have and count differently.
* `files_eq_iff_unchanged` — the files are the same exactly if no path is of the three kinds.
* `isEmpty_of_files_eq` — reports of the same files do not differ in languages and totals either.
* `between_sorts_files` — the three kinds are in order and apart, a change leads from the old counts
  to the new ones, and a comparison is empty exactly if the files are the same.
-/

/-! ### Files by path -/

attribute [ext] FileTally

section Table

variable {r : Report} (h : r.Valid)
include h

/-- The table of files has their paths as keys. -/
theorem keys_fileTable : r.fileTable.keys = r.files.map (·.path) :=
  Table.map_fst_ofList_keyed (Report.nodup_paths h)

/-- It has the paths of the files and no others. -/
theorem has_fileTable_iff {p : Letters} : r.fileTable.has p = true ↔ p ∈ r.files.map (·.path) := by
  rw [Table.has_iff, ← Table.keys, keys_fileTable h]

/-- Under a path it has the file of that path. -/
theorem get?_fileTable_iff {p : Letters} {f : FileTally} :
    r.fileTable.get? p = some f ↔ f ∈ r.files ∧ f.path = p :=
  Table.get?_ofList_keyed_iff (Report.nodup_paths h)

end Table

/-! ### The three kinds of paths -/

/-- The new files ascend. -/
theorem ascending_newFiles (a b : Report) : Ascending (between a b).newFiles :=
  ascending_sorted ((Table.nodup_keys_ofList _).filter _)

/-- So do the removed ones. -/
theorem ascending_removedFiles (a b : Report) : Ascending (between a b).removedFiles :=
  ascending_sorted ((Table.nodup_keys_ofList _).filter _)

/-- A change is about the path under which the two files were found. -/
theorem ascending_modifiedFiles (a b : Report) :
    Ascending ((between a b).modifiedFiles.map (·.path)) := by
  have hkeep : ∀ p q : Letters, before p q = true → before (id p) (id q) = true := fun _ _ h => h
  refine ascending_filterMap (fun p d hd => ?_) hkeep
    (ascending_sorted ((Table.nodup_keys_ofList _).filter _))
  split at hd
  · next f g hold hnew =>
    rw [fileChange?, Option.ite_none_left_eq_some, Option.some.injEq] at hd
    rw [← hd.2]
    exact path_of_get?_fileTable hnew
  · exact absurd hd (Option.some_ne_none d).symm

section Members

variable {a b : Report} (ha : a.Valid) (hb : b.Valid)
include ha hb

/-- **New files** are those that only the new report has. -/
theorem mem_newFiles_iff {p : Letters} :
    p ∈ (between a b).newFiles ↔ p ∈ b.files.map (·.path) ∧ p ∉ a.files.map (·.path) := by
  rw [between, mem_sorted, List.mem_filter, Bool.not_eq_true', ← Bool.not_eq_true,
    has_fileTable_iff ha, keys_fileTable hb]

/-- **Removed files** are those that are new when the comparison is read backwards. -/
theorem mem_removedFiles_iff {p : Letters} :
    p ∈ (between a b).removedFiles ↔ p ∈ a.files.map (·.path) ∧ p ∉ b.files.map (·.path) := by
  have hreverse : (between a b).removedFiles = (between b a).newFiles := by
    rw [between_reverse a b, reverse]
  rw [hreverse, mem_newFiles_iff hb ha]

/-- **Modified files** are those that both reports have, with another language or other counts. -/
theorem mem_modifiedFiles_iff {d : FileChange} :
    d ∈ (between a b).modifiedFiles ↔ ∃ f ∈ a.files, ∃ g ∈ b.files, f.path = g.path ∧
      (f.language ≠ g.language ∨ f.tally ≠ g.tally) ∧ d = ⟨g.path, f.tally.change g.tally⟩ := by
  rw [between, List.mem_filterMap]
  constructor
  · rintro ⟨p, -, hd⟩
    split at hd
    · next f g hold hnew =>
      rw [fileChange?, Option.ite_none_left_eq_some, Option.some.injEq] at hd
      obtain ⟨hf, rfl⟩ := (get?_fileTable_iff ha).1 hold
      obtain ⟨hg, hpath⟩ := (get?_fileTable_iff hb).1 hnew
      exact ⟨f, hf, g, hg, hpath.symm, not_and_or.1 hd.1, hd.2.symm⟩
    · exact absurd hd (Option.some_ne_none d).symm
  · rintro ⟨f, hf, g, hg, hpath, hdiffer, rfl⟩
    refine ⟨f.path, ?_, ?_⟩
    · rw [mem_sorted, List.mem_filter, keys_fileTable ha, has_fileTable_iff hb]
      exact ⟨List.mem_map_of_mem hf, hpath ▸ List.mem_map_of_mem hg⟩
    · rw [(get?_fileTable_iff ha).2 ⟨hf, rfl⟩, (get?_fileTable_iff hb).2 ⟨hg, hpath.symm⟩]
      exact if_neg (not_and_or.2 hdiffer)

/-- The paths of the modified files. -/
theorem mem_modifiedPaths_iff {p : Letters} :
    p ∈ (between a b).modifiedFiles.map (·.path) ↔ ∃ f ∈ a.files, ∃ g ∈ b.files,
      f.path = p ∧ g.path = p ∧ (f.language ≠ g.language ∨ f.tally ≠ g.tally) := by
  simp only [List.mem_map, mem_modifiedFiles_iff ha hb]
  constructor
  · rintro ⟨_, ⟨f, hf, g, hg, hpath, hdiffer, rfl⟩, rfl⟩
    exact ⟨f, hf, g, hg, hpath, rfl, hdiffer⟩
  · rintro ⟨f, hf, g, hg, hfp, hgp, hdiffer⟩
    exact ⟨_, ⟨f, hf, g, hg, hfp.trans hgp.symm, hdiffer, rfl⟩, hgp⟩

/-- The path of a modified file is in both reports. -/
theorem mem_paths_of_modified {p : Letters} (h : p ∈ (between a b).modifiedFiles.map (·.path)) :
    p ∈ a.files.map (·.path) ∧ p ∈ b.files.map (·.path) := by
  obtain ⟨f, hf, g, hg, hfp, hgp, -⟩ := (mem_modifiedPaths_iff ha hb).1 h
  exact ⟨List.mem_map.2 ⟨f, hf, hfp⟩, List.mem_map.2 ⟨g, hg, hgp⟩⟩

/-! ### The same files -/

/-- A file that is neither removed nor modified is in the new report. -/
theorem mem_of_not_removed_of_not_modified {f : FileTally} (hf : f ∈ a.files)
    (hremoved : f.path ∉ (between a b).removedFiles)
    (hmodified : f.path ∉ (between a b).modifiedFiles.map (·.path)) : f ∈ b.files := by
  have hkept : f.path ∈ b.files.map (·.path) := by
    by_contra hgone
    exact hremoved ((mem_removedFiles_iff ha hb).2 ⟨List.mem_map_of_mem hf, hgone⟩)
  obtain ⟨g, hg, hpath⟩ := List.mem_map.1 hkept
  have hsame : f.language = g.language ∧ f.tally = g.tally := by
    by_contra hdiffer
    exact hmodified ((mem_modifiedPaths_iff ha hb).2
      ⟨f, hf, g, hg, rfl, hpath, not_and_or.1 hdiffer⟩)
  have heq : f = g := FileTally.ext hpath.symm hsame.1 hsame.2
  exact heq ▸ hg

/-- **The same files.**  Valid reports have the same files exactly if no path is of one of the three
    kinds. -/
theorem files_eq_iff_unchanged :
    a.files = b.files ↔ (between a b).newFiles = [] ∧ (between a b).removedFiles = [] ∧
      (between a b).modifiedFiles = [] := by
  constructor
  · intro hfiles
    simp only [List.eq_nil_iff_forall_not_mem]
    refine ⟨fun p hp => ?_, fun p hp => ?_, fun d hd => ?_⟩
    · rw [mem_newFiles_iff ha hb, hfiles] at hp
      exact hp.2 hp.1
    · rw [mem_removedFiles_iff ha hb, hfiles] at hp
      exact hp.2 hp.1
    · obtain ⟨f, hf, g, hg, hpath, hdiffer, -⟩ := (mem_modifiedFiles_iff ha hb).1 hd
      obtain rfl := Report.eq_of_path_eq hb (hfiles ▸ hf) hg hpath
      exact hdiffer.elim (absurd rfl) (absurd rfl)
  · rintro ⟨hnew, hremoved, hmodified⟩
    refine eq_of_ascending_map (·.path) (Report.ascending_paths ha) (Report.ascending_paths hb)
      fun f => ⟨fun hf => ?_, fun hf => ?_⟩
    · exact mem_of_not_removed_of_not_modified ha hb hf (by simp [hremoved]) (by simp [hmodified])
    · -- Read backwards, the new files are the removed ones.
      have hreverse := between_reverse a b
      refine mem_of_not_removed_of_not_modified hb ha hf ?_ ?_
      · simp [hreverse, reverse, hnew]
      · simp [hreverse, reverse, hmodified]

end Members

/-! ### Languages and totals that stay -/

/-- Nothing changes between the same counts. -/
theorem isZero_change_self (t : Tally Nat) : (t.change t).isZero = true := by
  simp [Tally.isZero, Tally.change, Tally.zipWith]

/-- A language that both reports have with the same counts has not changed. -/
theorem isZero_languageChange_self (name : Letters) (l : Option LanguageTally) :
    (languageChange name l l).isZero = true := by
  simp [LanguageChange.isZero, languageChange, isZero_change_self]

/-- Nor does anything between the same totals. -/
theorem isZero_totalsChange_self (t : Totals) : (totalsChange t t).isZero = true := by
  simp [TotalsChange.isZero, totalsChange, isZero_change_self]

/-- Of two reports with the same languages, every language is in both. -/
theorem languages_between_of_eq {a b : Report} (h : a.languages = b.languages) :
    ∀ l ∈ (between a b).languages, l.isZero = true ∧ l.presence = .changed := by
  have htable : b.languageTable = a.languageTable := by
    rw [Report.languageTable, Report.languageTable, h]
  intro l hl
  simp only [between, htable, List.mem_map, mem_sorted, mem_dedup, List.mem_append, or_self] at hl
  obtain ⟨name, hname, rfl⟩ := hl
  obtain ⟨t, ht⟩ := Option.isSome_iff_exists.1 (Table.isSome_get?_iff.2 hname)
  refine ⟨isZero_languageChange_self _ _, ?_⟩
  rw [ht]
  rfl

/-- Languages that are in both reports have neither appeared nor disappeared. -/
theorem filter_presence_eq_nil {ls : List LanguageChange} (h : ∀ l ∈ ls, l.presence = .changed)
    {q : Presence} (hq : q ≠ .changed) : ls.filter (fun l => l.presence == q) = [] := by
  rw [List.filter_eq_nil_iff]
  intro l hl
  rw [h l hl, beq_iff_eq]
  exact hq.symm

/-- **Languages and totals follow the files.**  Valid reports of the same files differ in nothing
    that a comparison shows. -/
theorem isEmpty_of_files_eq {a b : Report} (ha : a.Valid) (hb : b.Valid)
    (hfiles : a.files = b.files) : (between a b).isEmpty = true := by
  have hlanguages : a.languages = b.languages := by
    rw [Report.languages_of_valid ha, Report.languages_of_valid hb, hfiles]
  have htotals : (between a b).totals.isZero = true := by
    rw [between, Report.summary_of_valid ha, Report.summary_of_valid hb, hlanguages]
    exact isZero_totalsChange_self _
  have hzero : (between a b).languages.all (·.isZero) = true :=
    List.all_eq_true.2 fun l hl => (languages_between_of_eq hlanguages l hl).1
  have hchanged : ∀ l ∈ (between a b).languages, l.presence = .changed :=
    fun l hl => (languages_between_of_eq hlanguages l hl).2
  obtain ⟨hnew, hremoved, hmodified⟩ := (files_eq_iff_unchanged ha hb).1 hfiles
  rw [isEmpty, htotals, hzero, appeared, disappeared, filter_presence_eq_nil hchanged (by decide),
    filter_presence_eq_nil hchanged (by decide), hnew, hremoved, hmodified]
  rfl

/-- A comparison is empty exactly if the files are the same: changes do not cancel. -/
theorem isEmpty_iff {a b : Report} (ha : a.Valid) (hb : b.Valid) :
    (between a b).isEmpty = true ↔ a.files = b.files := by
  refine ⟨fun h => ?_, isEmpty_of_files_eq ha hb⟩
  simp only [isEmpty, Bool.and_eq_true, List.isEmpty_iff] at h
  obtain ⟨⟨⟨-, hnew⟩, hremoved⟩, hmodified⟩ := h
  exact (files_eq_iff_unchanged ha hb).2 ⟨hnew, hremoved, hmodified⟩

/-- **Which files changed.**  Of two valid reports, a path is new if only the new one has it,
    removed if only the old one has it, and modified if both have it with another language or other
    counts.  The paths of each kind ascend strictly, and no path is of two kinds.  The counts of a
    modified file in the old report and its change make those in the new report.  The comparison is
    empty exactly if the reports have the same files. -/
theorem between_sorts_files {a b : Report} (ha : a.Valid) (hb : b.Valid) :
    let c := between a b
    let modified := c.modifiedFiles.map (·.path)
    (∀ p, p ∈ c.newFiles ↔ p ∈ b.files.map (·.path) ∧ p ∉ a.files.map (·.path)) ∧
    (∀ p, p ∈ c.removedFiles ↔ p ∈ a.files.map (·.path) ∧ p ∉ b.files.map (·.path)) ∧
    (∀ p, p ∈ modified ↔ ∃ f ∈ a.files, ∃ g ∈ b.files, f.path = p ∧ g.path = p ∧
      (f.language ≠ g.language ∨ f.tally ≠ g.tally)) ∧
    (Ascending c.newFiles ∧ Ascending c.removedFiles ∧ Ascending modified) ∧
    (c.newFiles.Disjoint c.removedFiles ∧ c.newFiles.Disjoint modified ∧
      c.removedFiles.Disjoint modified) ∧
    (∀ d ∈ c.modifiedFiles, ∀ f ∈ a.files, ∀ g ∈ b.files, f.path = d.path → g.path = d.path →
      (f.tally.map Int.ofNat).plus d.tally = g.tally.map Int.ofNat) ∧
    (c.isEmpty = true ↔ a.files = b.files) := by
  intro c modified
  refine ⟨fun p => mem_newFiles_iff ha hb, fun p => mem_removedFiles_iff ha hb,
    fun p => mem_modifiedPaths_iff ha hb,
    ⟨ascending_newFiles a b, ascending_removedFiles a b, ascending_modifiedFiles a b⟩,
    ⟨?_, ?_, ?_⟩, ?_, isEmpty_iff ha hb⟩
  · intro p hnew hremoved
    exact ((mem_newFiles_iff ha hb).1 hnew).2 ((mem_removedFiles_iff ha hb).1 hremoved).1
  · intro p hnew hmodified
    exact ((mem_newFiles_iff ha hb).1 hnew).2 (mem_paths_of_modified ha hb hmodified).1
  · intro p hremoved hmodified
    exact ((mem_removedFiles_iff ha hb).1 hremoved).2 (mem_paths_of_modified ha hb hmodified).2
  · intro d hd f hf g hg hfp hgp
    obtain ⟨f', hf', g', hg', hpath, -, rfl⟩ := (mem_modifiedFiles_iff ha hb).1 hd
    -- A path leads to one file of each report, so the change is that of these two files.
    obtain rfl : f = f' := Report.eq_of_path_eq ha hf hf' (hfp.trans hpath.symm)
    obtain rfl : g = g' := Report.eq_of_path_eq hb hg hg' hgp
    exact Tally.plus_change f.tally g.tally

/-- `between_sorts_files` for two files of one language that exchange their counts: neither the
    totals nor the language change, but the comparison is not empty. -/
theorem between_sorts_files_exchanged :
    let a : Report :=
      { version := "1.0"
        generatedAt := ⟨2026, 1, 2, 3, 4, 5, 0, none, by decide⟩
        files := [⟨"lib.rs", "Rust", ⟨3, 2, 1, 0⟩, by decide⟩,
          ⟨"main.rs", "Rust", ⟨5, 4, 0, 1⟩, by decide⟩]
        languages := [⟨"Rust", 2, ⟨8, 6, 1, 1⟩⟩]
        summary := ⟨2, ⟨8, 6, 1, 1⟩, 1⟩
        unsupported := []
        checksum := none }
    let b : Report :=
      { a with
        files := [⟨"lib.rs", "Rust", ⟨5, 4, 0, 1⟩, by decide⟩,
          ⟨"main.rs", "Rust", ⟨3, 2, 1, 0⟩, by decide⟩] }
    a.Valid ∧ b.Valid ∧ (between a b).totals.isZero = true ∧
      (∀ l ∈ (between a b).languages, l.isZero = true) ∧ (between a b).isEmpty = false := by
  intro a b
  have hpaths : Ascending [ofString "lib.rs", "main.rs"] := by decide
  have ha : a.Valid := Report.valid_iff.2 ⟨rfl, hpaths, by decide, by decide⟩
  have hb : b.Valid := Report.valid_iff.2 ⟨rfl, hpaths, by decide, by decide⟩
  have hlanguages : a.languages = b.languages := rfl
  have hfiles : a.files ≠ b.files := by decide
  obtain ⟨-, -, -, -, -, -, hempty⟩ := between_sorts_files ha hb
  exact ⟨ha, hb, by decide, fun l hl => (languages_between_of_eq hlanguages l hl).1,
    Bool.eq_false_iff.2 fun h => hfiles (hempty.1 h)⟩

end LineCensus.Comparison
