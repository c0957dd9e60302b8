import LineCensus.Proofs.Text.Order
import LineCensus.Report.Validity

namespace LineCensus.Report

open Text

/-!
# Building reports

* `valid_iff` — the rules of a valid report, one by one.
* `build_congr` — a report does not show in which order the files came, nor how often a file without
  a language was named.
* `build_idem` — a report of the files of a report is that report.
* `build_self` — a report that is what its files give is built from them.
* `valid_build` — a report of files with distinct paths breaks no rule.
* `valid_build_iff`, `defect?_build` — no other report of files does, and all that is wrong with it
  is that a path is repeated.
* `build_canonical` — a report shows which files there are, and nothing of how they came.
* `valid_iff_reprocess` — the valid reports are those that counting again leaves as they are.
-/

/-- **The rules.**  A report is valid if its major version is the one in use, its paths are in
    strictly ascending order, and languages and totals follow from the files. -/
theorem valid_iff {r : Report} :
    Valid r ↔ majorVersion r.version = majorVersion formatVersion ∧
      Ascending (r.files.map (·.path)) ∧ r.languages = summarizeLanguages r.files ∧
        r.summary = summarize (summarizeLanguages r.files) := by
  have hrule {p : Prop} [Decidable p] (d : Defect) (others : Option Defect) :
      (if p then some d else others) = none ↔ ¬p ∧ others = none := by
    by_cases hp : p
    · simp only [hp, if_true, reduceCtorEq, not_true_eq_false, false_and]
    · simp only [hp, if_false, not_false_eq_true, true_and]
  simp only [Valid, defect?, hrule, ne_eq, not_not, and_true, ascending_iff_sorted,
    ← length_dedup_eq_iff, and_assoc, eq_comm (b := sorted (r.files.map (·.path)))]

section Valid

variable {r : Report} (h : r.Valid)
include h

/-- The paths of a valid report ascend. -/
theorem ascending_paths : Ascending (r.files.map (·.path)) := (valid_iff.1 h).2.1

/-- Its languages are those of its files. -/
theorem languages_of_valid : r.languages = summarizeLanguages r.files := (valid_iff.1 h).2.2.1

/-- Its totals are those of its languages. -/
theorem summary_of_valid : r.summary = summarize r.languages := by
  rw [languages_of_valid h]
  exact (valid_iff.1 h).2.2.2

/-- In a valid report every path is there once. -/
theorem nodup_paths : (r.files.map (·.path)).Nodup := (ascending_paths h).nodup

/-- In a valid report a path leads to one file. -/
theorem eq_of_path_eq {f g : FileTally} (hf : f ∈ r.files) (hg : g ∈ r.files)
    (hpath : f.path = g.path) : f = g :=
  List.inj_on_of_nodup_map (nodup_paths h) hf hg hpath

end Valid

/-- **Order does not show.**  Files with distinct paths give one report in whatever order they come,
    and of the files without a language it matters only which there are. -/
theorem build_congr {files files' : List FileTally} {unsupported unsupported' : List Letters}
    (hf : files.Perm files') (hn : (files.map (·.path)).Nodup)
    (hu : ∀ p, p ∈ unsupported ↔ p ∈ unsupported') (now : Moment) :
    build files unsupported now = build files' unsupported' now := by
  have hfiles : sortOn (·.path) files = sortOn (·.path) files' := sortOn_eq_of_perm _ hf hn
  have hunsupported : sorted (dedup unsupported) = sorted (dedup unsupported') :=
    sorted_dedup_congr hu
  simp only [build, hfiles, hunsupported]

/-- Files that come in order stay as they are. -/
theorem build_files_of_ascending {files : List FileTally} (hf : Ascending (files.map (·.path)))
    (unsupported : List Letters) (now : Moment) :
    (build files unsupported now).files = files :=
  sortOn_eq_of_perm_ascending _ (List.Perm.refl files) hf

/-- Files without a language that come in order stay as they are. -/
theorem build_unsupported_of_ascending (files : List FileTally) {unsupported : List Letters}
    (hu : Ascending unsupported) (now : Moment) :
    (build files unsupported now).unsupported = unsupported :=
  sorted_dedup_of_mem hu fun _ => Iff.rfl

/-- **Built once.**  The files of a report, with or without a language, give that report again: they
    are in order, and equal paths keep theirs. -/
theorem build_idem (files : List FileTally) (unsupported : List Letters) (now later : Moment) :
    build (build files unsupported now).files (build files unsupported now).unsupported later =
      build files unsupported later := by
  have hfiles : sortOn (·.path) (sortOn (·.path) files) = sortOn (·.path) files :=
    sortOn_of_pairwise _ (sortOn_pairwise _ files)
  have hunsupported : sorted (dedup (sorted (dedup unsupported))) = sorted (dedup unsupported) :=
    sorted_dedup_of_mem (ascending_sorted_dedup unsupported) fun _ => Iff.rfl
  simp only [build, hfiles, hunsupported]

/-- A report that is what its files give is built from them. -/
theorem build_self {r : Report} (hversion : r.version = formatVersion)
    (hfiles : r.files.Pairwise fun f g => atMost f.path g.path = true)
    (hlanguages : r.languages = summarizeLanguages r.files)
    (hsummary : r.summary = summarize (summarizeLanguages r.files))
    (hunsupported : Ascending r.unsupported) (hchecksum : r.checksum = none) :
    build r.files r.unsupported r.generatedAt = r := by
  have hsorted : sortOn (·.path) r.files = r.files := sortOn_of_pairwise _ hfiles
  have hdistinct : sorted (dedup r.unsupported) = r.unsupported :=
    sorted_dedup_of_mem hunsupported fun _ => Iff.rfl
  simp only [build, hsorted, hdistinct, ← hversion, ← hlanguages, ← hchecksum]
  rw [hlanguages, ← hsummary, ← hlanguages]

/-- **Reports are valid.**  The report of files with distinct paths breaks no rule. -/
theorem valid_build {files : List FileTally} (hn : (files.map (·.path)).Nodup)
    (unsupported : List Letters) (now : Moment) : Valid (build files unsupported now) := by
  rw [valid_iff]
  exact ⟨rfl, ascending_map_sortOn _ hn, rfl, rfl⟩

/-- **Repeated paths.**  What is built is valid exactly if no path is repeated. -/
theorem valid_build_iff {files : List FileTally} {unsupported : List Letters} {now : Moment} :
    Valid (build files unsupported now) ↔ (files.map (·.path)).Nodup := by
  refine ⟨fun h => ?_, fun hn => valid_build hn unsupported now⟩
  have hascending : Ascending ((sortOn (·.path) files).map (·.path)) := ascending_paths h
  exact ((sortOn_perm _ files).map _).nodup_iff.1 hascending.nodup

/-- A report of files breaks one rule at most. -/
theorem defect?_build {files : List FileTally} (hn : ¬(files.map (·.path)).Nodup)
    (unsupported : List Letters) (now : Moment) :
    (build files unsupported now).defect? = some .duplicateFiles := by
  have hsorted : sorted ((sortOn (·.path) files).map (·.path)) =
      (sortOn (·.path) files).map (·.path) :=
    sortOn_of_pairwise id (List.pairwise_map.2 (sortOn_pairwise _ files))
  have hrepeated : (dedup ((sortOn (·.path) files).map (·.path))).length ≠
      ((sortOn (·.path) files).map (·.path)).length := by
    rw [ne_eq, length_dedup_eq_iff, ((sortOn_perm _ files).map _).nodup_iff]
    exact hn
  simp only [defect?, build, ne_eq, not_true_eq_false, if_false, hsorted, hrepeated,
    not_false_eq_true, if_true]

/-! ### The canonical report -/

/-- What is built has all the files. -/
theorem perm_files_build (files : List FileTally) (unsupported : List Letters) (now : Moment) :
    (build files unsupported now).files.Perm files :=
  sortOn_perm _ files

/-- It has all the paths of files without a language. -/
theorem mem_unsupported_build (files : List FileTally) (unsupported : List Letters) (now : Moment)
    {p : Letters} : p ∈ (build files unsupported now).unsupported ↔ p ∈ unsupported := by
  simp only [build, mem_sorted, mem_dedup]

/-- **A canonical report.**  For files with distinct paths, two collections made at one time give
    the same report exactly if they hold the same files in any order and name the same files without
    a language, in any order and however often.  The report keeps all files, in strictly ascending
    order of their paths, and all files without a language, each once and in ascending order; and it
    breaks no rule. -/
theorem build_canonical {files : List FileTally} (hn : (files.map (·.path)).Nodup)
    (unsupported : List Letters) (now : Moment) :
    let r := build files unsupported now
    (∀ files' unsupported', build files' unsupported' now = r ↔
      files'.Perm files ∧ ∀ p, p ∈ unsupported' ↔ p ∈ unsupported) ∧
    (r.files.Perm files ∧ Ascending (r.files.map (·.path))) ∧
    ((∀ p, p ∈ r.unsupported ↔ p ∈ unsupported) ∧ Ascending r.unsupported) ∧
    r.Valid := by
  intro r
  refine ⟨fun files' unsupported' => ⟨fun h => ⟨?_, fun p => ?_⟩, fun h => ?_⟩,
    ⟨perm_files_build files unsupported now, ascending_map_sortOn _ hn⟩,
    ⟨fun p => mem_unsupported_build files unsupported now, ascending_sorted_dedup unsupported⟩,
    valid_build hn unsupported now⟩
  · have hperm := perm_files_build files' unsupported' now
    rw [h] at hperm
    exact hperm.symm.trans (perm_files_build files unsupported now)
  · calc p ∈ unsupported' ↔ p ∈ (build files' unsupported' now).unsupported :=
          (mem_unsupported_build files' unsupported' now).symm
      _ ↔ p ∈ r.unsupported := by rw [h]
      _ ↔ p ∈ unsupported := mem_unsupported_build files unsupported now
  · exact (build_congr h.1.symm hn (fun p => (h.2 p).symm) now).symm

/-- `build_canonical` for two files in either order and a file without a language named twice. -/
theorem build_canonical_shuffled :
    let now : Moment := ⟨2026, 1, 2, 3, 4, 5, 0, none, by decide⟩
    let lib : FileTally := ⟨"lib.rs", "Rust", ⟨3, 2, 1, 0⟩, by decide⟩
    let setup : FileTally := ⟨"setup.py", "Python", ⟨5, 4, 0, 1⟩, by decide⟩
    let r := build [lib, setup] ["LICENSE", "logo.png"] now
    ([lib, setup].map (·.path)).Nodup ∧
      build [setup, lib] ["logo.png", "LICENSE", "logo.png"] now = r ∧ r.Valid := by
  intro now lib setup r
  have hn : ([lib, setup].map (·.path)).Nodup := by decide
  obtain ⟨hsame, -, -, hvalid⟩ := build_canonical hn ["LICENSE", "logo.png"] now
  have hunsupported (p : Letters) :
      p ∈ [ofString "logo.png", "LICENSE", "logo.png"] ↔ p ∈ [ofString "LICENSE", "logo.png"] := by
    grind
  exact ⟨hn, (hsame _ _).2 ⟨List.Perm.swap lib setup [], hunsupported⟩, hvalid⟩

/-! ### Counting again -/

/-- The files of a report stay as they are when it is counted again, if its paths are distinct,
    exactly if they are in strictly ascending order. -/
theorem ascending_iff_reprocess {r : Report} :
    Ascending (r.files.map (·.path)) ↔
      (r.files.map (·.path)).Nodup ∧ r.reprocess.files = r.files := by
  constructor
  · intro h
    exact ⟨h.nodup, build_files_of_ascending h r.unsupported r.generatedAt⟩
  · rintro ⟨hn, hfiles⟩
    have hascending : Ascending (r.reprocess.files.map (·.path)) := ascending_map_sortOn _ hn
    rwa [hfiles] at hascending

/-- **Checking and counting again agree.**  A report is valid exactly if its major version is 1, its
    paths are distinct, and counting its files again gives the same files, languages and totals.
    Counting again a second time changes nothing; it keeps the time of generation and leaves no
    checksum. -/
theorem valid_iff_reprocess (r : Report) :
    (r.Valid ↔ majorVersion r.version = "1" ∧ (r.files.map (·.path)).Nodup ∧
      r.reprocess.files = r.files ∧ r.reprocess.languages = r.languages ∧
        r.reprocess.summary = r.summary) ∧
    r.reprocess.reprocess = r.reprocess ∧ r.reprocess.generatedAt = r.generatedAt ∧
      r.reprocess.checksum = none := by
  refine ⟨?_, build_idem r.files r.unsupported r.generatedAt r.generatedAt, rfl, rfl⟩
  have hversion : majorVersion formatVersion = "1" := by decide
  have hlanguages : r.reprocess.languages = summarizeLanguages r.reprocess.files := rfl
  have hsummary : r.reprocess.summary = summarize (summarizeLanguages r.reprocess.files) := rfl
  rw [valid_iff, ascending_iff_reprocess, hversion, hlanguages, hsummary, and_assoc]
  -- The derived parts are compared only for files that counting again has left as they are.
  refine and_congr_right fun _ => and_congr_right fun _ => and_congr_right fun hfiles => ?_
  rw [hfiles, eq_comm, eq_comm (a := r.summary)]

end LineCensus.Report
