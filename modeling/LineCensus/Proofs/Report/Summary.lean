import LineCensus.Proofs.Report.Build
import Mathlib.Algebra.BigOperators.Group.List.Basic
import Mathlib.Algebra.Ring.Nat
import Mathlib.Data.Finset.Card

namespace LineCensus

open Text

/-!
# Counting by language

What a summary keeps of the files that it counts:

* `Count`, `Tally.count` — the four counts of a tally by name.
* `map_language_summarizeLanguages` — every language of the files has one entry, in the order of
  first appearance.
* `sum_summarizeLanguages` — the entries hold what the files hold, whatever is added up, and
  `sum_language` — each of them what the files of its language hold.
* `balanced_summarizeLanguages` — entries are balanced as the files are.
* `count_summarize`, `fileCount_summarize` — the totals add up the entries.
* `Report.AddsUp` — the entries and totals of a report are those of given files;
  `Report.build_addsUp` — they are if the report is built from the files.
* `Report.count_summary_files`, `Report.count_summary_languages` — so the totals of a valid report
  are those of its files and of its languages.
-/

/-! ### The four counts -/

/-- The name of a count. -/
inductive Count where
  | total
  | logical
  | comment
  | empty
  deriving DecidableEq, Repr

namespace Tally

variable {α : Type}

/-- The count of a name. -/
def count (t : Tally α) : Count → α
  | .total => t.total
  | .logical => t.logical
  | .comment => t.comment
  | .empty => t.empty

@[simp] theorem count_zero (k : Count) : zero.count k = 0 := by
  cases k <;> rfl

@[simp] theorem count_add (s t : Tally Nat) (k : Count) :
    (s.add t).count k = s.count k + t.count k := by
  cases k <;> rfl

/-- Every count changes by its difference. -/
@[simp] theorem count_change (s t : Tally Nat) (k : Count) :
    (s.change t).count k = (t.count k : Int) - s.count k := by
  cases k <;> rfl

/-- No lines are balanced. -/
theorem balanced_zero : zero.Balanced := rfl

/-- What is balanced stays so when more of it is counted. -/
theorem Balanced.add {s t : Tally Nat} (hs : s.Balanced) (ht : t.Balanced) :
    (s.add t).Balanced := by
  simp only [Balanced, Tally.add, zipWith] at hs ht ⊢
  omega

/-- A change in which the total changes as the three kinds do. -/
def BalancedChange (t : Tally Int) : Prop := t.total = t.logical + t.comment + t.empty

/-- The change from balanced counts to balanced counts is balanced. -/
theorem Balanced.change {s t : Tally Nat} (hs : s.Balanced) (ht : t.Balanced) :
    (s.change t).BalancedChange := by
  simp only [Balanced, BalancedChange, Tally.change, zipWith] at hs ht ⊢
  omega

end Tally

/-! ### One more file -/

/-- A file adds its language to those at hand, unless it is one of them. -/
theorem map_language_countFile (rs : List LanguageTally) (f : FileTally) :
    (countFile rs f).map (·.language) =
      if f.language ∈ rs.map (·.language) then rs.map (·.language)
      else rs.map (·.language) ++ [f.language] := by
  induction rs with
  | nil => rfl
  | cons r rs ih =>
    rw [countFile]
    by_cases hr : r.language = f.language
    · rw [if_pos hr, if_pos (by simp [hr])]
      rfl
    · have hmem : f.language ∈ (r :: rs).map (·.language) ↔ f.language ∈ rs.map (·.language) := by
        simp [Ne.symm hr]
      rw [if_neg hr, if_congr hmem rfl rfl, List.map_cons, List.map_cons, ih]
      split <;> rfl

/-- The counts of languages stay balanced when a file is added. -/
theorem balanced_countFile {rs : List LanguageTally} (h : ∀ r ∈ rs, r.tally.Balanced)
    (f : FileTally) : ∀ r ∈ countFile rs f, r.tally.Balanced := by
  induction rs with
  | nil =>
    rw [countFile, List.forall_mem_singleton]
    exact f.balanced
  | cons r rs ih =>
    rw [List.forall_mem_cons] at h
    rw [countFile]
    by_cases hr : r.language = f.language
    · rw [if_pos hr, List.forall_mem_cons]
      exact ⟨h.1.add f.balanced, h.2⟩
    · rw [if_neg hr, List.forall_mem_cons]
      exact ⟨h.1, ih h.2⟩

/-! ### All files -/

/-- **One entry a language.**  The entries are those of the distinct languages of the files, in the
    order in which the files bring them up. -/
theorem map_language_summarizeLanguages (files : List FileTally) :
    (summarizeLanguages files).map (·.language) = dedup (files.map (·.language)) := by
  rw [dedup, List.foldl_map, summarizeLanguages]
  refine (List.foldl_hom (fun rs : List LanguageTally => rs.map (·.language)) ?_).symm
  intro rs f
  simp only [map_language_countFile rs f, List.contains_iff_mem]

/-- No language has two entries. -/
theorem nodup_language_summarizeLanguages (files : List FileTally) :
    ((summarizeLanguages files).map (·.language)).Nodup := by
  rw [map_language_summarizeLanguages]
  exact nodup_dedup _

/-- The counts of languages are balanced. -/
theorem balanced_summarizeLanguages (files : List FileTally) :
    ∀ r ∈ summarizeLanguages files, r.tally.Balanced :=
  List.foldlRecOn (motive := fun rs : List LanguageTally => ∀ r ∈ rs, r.tally.Balanced) files _
    (fun _ hr => absurd hr List.not_mem_nil) fun _ h f _ => balanced_countFile h f

section Sums

variable {M : Type*} [AddCommMonoid M] {v : LanguageTally → M} {w : FileTally → M}
  (hnew : ∀ f : FileTally, v ⟨f.language, 1, f.tally⟩ = w f)
  (hmore : ∀ (r : LanguageTally) (f : FileTally), r.language = f.language →
    v ⟨r.language, r.fileCount + 1, r.tally.add f.tally⟩ = v r + w f)
include hnew hmore

/-- One more file adds its share to the entries. -/
theorem sum_countFile (rs : List LanguageTally) (f : FileTally) :
    ((countFile rs f).map v).sum = (rs.map v).sum + w f := by
  induction rs with
  | nil => simp only [countFile, List.map_cons, List.map_nil, List.sum_cons, List.sum_nil, hnew,
      add_zero, zero_add]
  | cons r rs ih =>
    rw [countFile, List.map_cons, List.sum_cons]
    by_cases hr : r.language = f.language
    · rw [if_pos hr, List.map_cons, List.sum_cons, hmore r f hr, add_right_comm]
    · rw [if_neg hr, List.map_cons, List.sum_cons, ih, add_assoc]

/-- **Nothing is lost.**  Whatever the entries add up file by file, they hold the sum over all
    files. -/
theorem sum_summarizeLanguages (files : List FileTally) :
    ((summarizeLanguages files).map v).sum = (files.map w).sum := by
  suffices hfold : ∀ rs : List LanguageTally,
      ((files.foldl countFile rs).map v).sum = (rs.map v).sum + (files.map w).sum by
    rw [summarizeLanguages, hfold, List.map_nil, List.sum_nil, zero_add]
  induction files with
  | nil => exact fun rs => (add_zero _).symm
  | cons f files ih =>
    intro rs
    rw [List.foldl_cons, ih, sum_countFile hnew hmore, List.map_cons, List.sum_cons, add_assoc]

/-- **One language.**  An entry holds the sum over the files of its language. -/
theorem sum_language {files : List FileTally} {l : LanguageTally}
    (hl : l ∈ summarizeLanguages files) :
    v l = ((files.filter fun f => f.language = l.language).map w).sum := by
  -- Nothing is lost either if the other languages are counted as nothing.
  have hsum : ((summarizeLanguages files).map fun r =>
      if r.language = l.language then v r else 0).sum =
        (files.map fun f => if f.language = l.language then w f else 0).sum := by
    apply sum_summarizeLanguages
    · intro f
      simp only [hnew]
    · intro r f hr
      by_cases hl' : r.language = l.language
      · rw [if_pos hl', if_pos hl', if_pos (hr ▸ hl'), hmore r f hr]
      · rw [if_neg hl', if_neg hl', if_neg (hr ▸ hl'), add_zero]
  -- No other entry is of this language.
  have hothers : ∀ r, r ≠ l → r ∈ summarizeLanguages files →
      (if r.language = l.language then v r else 0) = 0 := by
    intro r hne hr
    apply if_neg
    intro hlanguage
    exact hne (List.inj_on_of_nodup_map (nodup_language_summarizeLanguages files) hr hl hlanguage)
  have hcount : (summarizeLanguages files).count l = 1 :=
    List.count_eq_one_of_mem (nodup_language_summarizeLanguages files).of_map hl
  rw [List.sum_map_eq_nsmul_single l _ hothers, hcount, one_nsmul, if_pos rfl,
    List.sum_map_ite] at hsum
  simpa using hsum

end Sums

/-- An entry has the number of the files of its language. -/
theorem fileCount_language {files : List FileTally} {l : LanguageTally}
    (hl : l ∈ summarizeLanguages files) :
    l.fileCount = (files.filter fun f => f.language = l.language).length := by
  have hsum := sum_language (v := (·.fileCount)) (w := fun _ => 1) (fun _ => rfl)
    (fun _ _ _ => rfl) hl
  rwa [List.map_const', List.sum_const_nat, Nat.mul_one] at hsum

/-- An entry has the counts of the files of its language. -/
theorem count_language {files : List FileTally} {l : LanguageTally}
    (hl : l ∈ summarizeLanguages files) (k : Count) :
    l.tally.count k =
      ((files.filter fun f => f.language = l.language).map fun f => f.tally.count k).sum :=
  sum_language (v := fun l => l.tally.count k) (fun _ => rfl)
    (fun r f _ => Tally.count_add r.tally f.tally k) hl

/-! ### The totals -/

/-- Each count of the totals is the sum over the languages. -/
theorem count_summarize (ls : List LanguageTally) (k : Count) :
    (summarize ls).tally.count k = (ls.map fun l => l.tally.count k).sum := by
  induction ls with
  | nil => exact Tally.count_zero k
  | cons l ls ih => rw [List.map_cons, List.sum_cons, ← ih, ← Tally.count_add]; rfl

/-- So is the number of files. -/
theorem fileCount_summarize (ls : List LanguageTally) :
    (summarize ls).fileCount = (ls.map (·.fileCount)).sum :=
  rfl

/-- The totals of balanced counts are balanced. -/
theorem balanced_summarize {ls : List LanguageTally} (h : ∀ l ∈ ls, l.tally.Balanced) :
    (summarize ls).tally.Balanced := by
  induction ls with
  | nil => exact Tally.balanced_zero
  | cons l ls ih =>
    rw [List.forall_mem_cons] at h
    exact h.1.add (ih h.2)

/-- The totals have the counts of all files. -/
theorem count_summarize_files (files : List FileTally) (k : Count) :
    (summarize (summarizeLanguages files)).tally.count k =
      (files.map fun f => f.tally.count k).sum := by
  rw [count_summarize]
  exact sum_summarizeLanguages (fun _ => rfl) (fun r f _ => Tally.count_add r.tally f.tally k) files

/-- The totals have the number of all files. -/
theorem fileCount_summarize_files (files : List FileTally) :
    (summarize (summarizeLanguages files)).fileCount = files.length := by
  rw [fileCount_summarize, sum_summarizeLanguages (w := fun _ => 1) (fun _ => rfl)
    fun _ _ _ => rfl, List.map_const', List.sum_const_nat, Nat.mul_one]

/-- The totals have the number of distinct languages. -/
theorem languageCount_summarize_files (files : List FileTally) :
    (summarize (summarizeLanguages files)).languageCount =
      (files.map (·.language)).toFinset.card := by
  have hnames : (files.map (·.language)).toFinset =
      ((summarizeLanguages files).map (·.language)).toFinset := by
    ext name
    rw [map_language_summarizeLanguages, List.mem_toFinset, List.mem_toFinset, mem_dedup]
  rw [hnames, List.toFinset_card_of_nodup (nodup_language_summarizeLanguages files),
    List.length_map]
  rfl

/-! ### Reports that add up -/

namespace Report

/-- The report adds up the files: one entry for every language of theirs, in the order in which the
    report lists it first, with the number and the counts of exactly the files of that language, and
    totals over all files. -/
structure AddsUp (r : Report) (files : List FileTally) : Prop where
  language_order : r.languages.map (·.language) = dedup (r.files.map (·.language))
  nodup_language : (r.languages.map (·.language)).Nodup
  mem_language : ∀ name, name ∈ r.languages.map (·.language) ↔ name ∈ files.map (·.language)
  fileCount_language : ∀ l ∈ r.languages,
    l.fileCount = (files.filter fun f => f.language = l.language).length
  count_language : ∀ l ∈ r.languages, ∀ k, l.tally.count k =
    ((files.filter fun f => f.language = l.language).map fun f => f.tally.count k).sum
  fileCount_summary : r.summary.fileCount = files.length
  languageCount_summary : r.summary.languageCount = (files.map (·.language)).toFinset.card
  count_summary : ∀ k, r.summary.tally.count k = (files.map fun f => f.tally.count k).sum
  balanced_language : ∀ l ∈ r.languages, l.tally.Balanced
  balanced_summary : r.summary.tally.Balanced

/-- A report whose languages and totals follow from its files adds these up. -/
theorem addsUp_files {r : Report} (hlanguages : r.languages = summarizeLanguages r.files)
    (hsummary : r.summary = summarize r.languages) : r.AddsUp r.files where
  language_order := by rw [hlanguages, map_language_summarizeLanguages]
  nodup_language := by
    rw [hlanguages]
    exact nodup_language_summarizeLanguages r.files
  mem_language name := by rw [hlanguages, map_language_summarizeLanguages, mem_dedup]
  fileCount_language l hl := fileCount_language (hlanguages ▸ hl)
  count_language l hl := count_language (hlanguages ▸ hl)
  fileCount_summary := by rw [hsummary, hlanguages, fileCount_summarize_files]
  languageCount_summary := by rw [hsummary, hlanguages, languageCount_summarize_files]
  count_summary k := by rw [hsummary, hlanguages, count_summarize_files]
  balanced_language := hlanguages ▸ balanced_summarizeLanguages r.files
  balanced_summary := by
    rw [hsummary, hlanguages]
    exact balanced_summarize (balanced_summarizeLanguages r.files)

/-- What a report adds up does not depend on the order of the files. -/
theorem AddsUp.of_perm {r : Report} {files files' : List FileTally} (h : r.AddsUp files)
    (hperm : files.Perm files') : r.AddsUp files' where
  language_order := h.language_order
  nodup_language := h.nodup_language
  mem_language name := (h.mem_language name).trans (hperm.map _).mem_iff
  fileCount_language l hl := (h.fileCount_language l hl).trans (hperm.filter _).length_eq
  count_language l hl k :=
    (h.count_language l hl k).trans ((hperm.filter _).map _).sum_eq
  fileCount_summary := h.fileCount_summary.trans hperm.length_eq
  languageCount_summary := by
    rw [h.languageCount_summary, List.toFinset_eq_of_perm _ _ (hperm.map _)]
  count_summary k := (h.count_summary k).trans (hperm.map _).sum_eq
  balanced_language := h.balanced_language
  balanced_summary := h.balanced_summary

/-- **Built reports add up.**  The report of any files, paths and languages repeated or not, has the
    files in the order of their paths, those of one path as they came, and it adds up all of
    them. -/
theorem build_addsUp (files : List FileTally) (unsupported : List Letters) (now : Moment) :
    let r := build files unsupported now
    (r.files.Perm files ∧ r.files.Pairwise (fun f g => atMost f.path g.path = true) ∧
      ∀ path, (r.files.filter fun f => f.path = path) = files.filter fun f => f.path = path) ∧
    r.AddsUp files := by
  intro r
  have hperm : r.files.Perm files := perm_files_build files unsupported now
  -- Languages and totals are derived from the sorted files.
  have hsorted : r.AddsUp r.files := addsUp_files rfl rfl
  refine ⟨⟨hperm, ?_, ?_⟩, hsorted.of_perm hperm⟩
  · exact sortOn_pairwise _ files
  · intro path
    exact filter_sortOn _ files path

/-! ### Valid reports -/

variable {r : Report} (h : r.Valid)
include h

/-- A valid report adds up to its files. -/
theorem addsUp_of_valid : r.AddsUp r.files :=
  addsUp_files (languages_of_valid h) (summary_of_valid h)

/-- In a valid report each count of the totals is the sum over its languages. -/
theorem count_summary_languages (k : Count) :
    r.summary.tally.count k = (r.languages.map fun l => l.tally.count k).sum := by
  rw [summary_of_valid h, count_summarize]

/-- It is the sum over its files, too. -/
theorem count_summary_files (k : Count) :
    r.summary.tally.count k = (r.files.map fun f => f.tally.count k).sum :=
  (addsUp_of_valid h).count_summary k

/-- The number of files is the sum over the languages. -/
theorem fileCount_summary_languages :
    r.summary.fileCount = (r.languages.map (·.fileCount)).sum := by
  rw [summary_of_valid h, fileCount_summarize]

/-- It is the number of files in the report. -/
theorem fileCount_summary_files : r.summary.fileCount = r.files.length :=
  (addsUp_of_valid h).fileCount_summary

/-- The number of languages is that of the languages in the report. -/
theorem languageCount_summary : r.summary.languageCount = r.languages.length := by
  rw [summary_of_valid h]
  rfl

/-- No language has two entries. -/
theorem nodup_languages : (r.languages.map (·.language)).Nodup := (addsUp_of_valid h).nodup_language

/-- The counts of each language are balanced. -/
theorem balanced_languages : ∀ l ∈ r.languages, l.tally.Balanced :=
  (addsUp_of_valid h).balanced_language

/-- So are the totals. -/
theorem balanced_summary : r.summary.tally.Balanced := (addsUp_of_valid h).balanced_summary

end Report

end LineCensus
