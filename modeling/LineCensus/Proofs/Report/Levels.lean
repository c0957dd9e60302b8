import LineCensus.Proofs.Report.FileChanges
import LineCensus.Proofs.Report.Summary
import Mathlib.Algebra.BigOperators.Group.Finset.Piecewise
import Mathlib.Algebra.BigOperators.Ring.Finset

namespace LineCensus

open Text

/-!
# The levels of a comparison

A comparison of two valid reports shows the same change per language, in all and per file, though
each level is taken from another part of the reports:

* `Report.tallyOf` — the counts that a report has of a path.
* `sum_names`, `sum_sub_sum`, `length_sub_length` — sums and numbers of items with distinct names.
* `Comparison.sum_change_languages` — what the languages change by is what they hold in the new
  report less what they hold in the old one.
* `Comparison.count_totals_files` — the totals change by what is in the new files, less what was in
  the removed ones, and by what the modified ones change by.
* `Comparison.levels_agree` — the three levels agree.
-/

/-! ### Sums over names -/

section Sums

variable {α M : Type} [AddCommMonoid M]

/-- Items with distinct names are added up name by name. -/
theorem sum_names {xs : List α} {name : α → Letters} (hn : (xs.map name).Nodup) (g : Letters → M)
    {w : α → M} (h : ∀ x ∈ xs, g (name x) = w x) :
    ∑ s ∈ (xs.map name).toFinset, g s = (xs.map w).sum := by
  rw [List.sum_toFinset g hn, List.map_map]
  exact congrArg List.sum (List.map_congr_left h)

/-- The names that only one of two lists has. -/
theorem toFinset_eq_sdiff {names new old : List Letters}
    (h : ∀ s, s ∈ names ↔ s ∈ new ∧ s ∉ old) :
    names.toFinset = new.toFinset \ old.toFinset := by
  ext s
  rw [List.mem_toFinset, h, Finset.mem_sdiff, List.mem_toFinset, List.mem_toFinset]

/-- **New less old.**  Two sums over names differ by the names of one side only and by the
    differences at the names of both. -/
theorem sum_sub_sum (new old : Finset Letters) (g h : Letters → Int) :
    ∑ s ∈ new, g s - ∑ s ∈ old, h s =
      ∑ s ∈ new \ old, g s - ∑ s ∈ old \ new, h s + ∑ s ∈ old ∩ new, (g s - h s) := by
  rw [← Finset.sum_inter_add_sum_sdiff new old g, ← Finset.sum_inter_add_sum_sdiff old new h,
    Finset.sum_sub_distrib, Finset.inter_comm new old]
  omega

/-- The numbers of distinct names differ by the names of one side only. -/
theorem length_sub_length {new old gained lost : List Letters} (hnew : new.Nodup) (hold : old.Nodup)
    (hgained : gained.Nodup) (hlost : lost.Nodup) (hg : ∀ s, s ∈ gained ↔ s ∈ new ∧ s ∉ old)
    (hl : ∀ s, s ∈ lost ↔ s ∈ old ∧ s ∉ new) :
    (new.length : Int) - old.length = gained.length - lost.length := by
  have hnew' := Finset.card_inter_add_card_sdiff new.toFinset old.toFinset
  have hold' := Finset.card_inter_add_card_sdiff old.toFinset new.toFinset
  rw [← toFinset_eq_sdiff hg, List.toFinset_card_of_nodup hnew, List.toFinset_card_of_nodup hgained]
    at hnew'
  rw [← toFinset_eq_sdiff hl, Finset.inter_comm, List.toFinset_card_of_nodup hold,
    List.toFinset_card_of_nodup hlost] at hold'
  omega

end Sums

/-! ### Files by path -/

/-- The counts of the file at a path, zeros if the report does not have it. -/
def Report.tallyOf (r : Report) (path : Letters) : Tally Nat :=
  match r.files.find? fun f => f.path == path with
  | some f => f.tally
  | none => Tally.zero

/-- The paths of the files of a report. -/
def Report.paths (r : Report) : Finset Letters := (r.files.map (·.path)).toFinset

namespace Report

/-- The paths of a report are those of its files. -/
theorem mem_paths {r : Report} {p : Letters} : p ∈ r.paths ↔ p ∈ r.files.map (·.path) :=
  List.mem_toFinset

variable {r : Report} (h : r.Valid)
include h

/-- The counts of a path are those of its one file. -/
theorem tallyOf_path {f : FileTally} (hf : f ∈ r.files) : r.tallyOf f.path = f.tally := by
  have hfound : (r.files.find? fun g => g.path == f.path).isSome = true :=
    List.find?_isSome.2 ⟨f, hf, beq_self_eq_true f.path⟩
  obtain ⟨g, hg⟩ := Option.isSome_iff_exists.1 hfound
  have hpath : g.path = f.path := by simpa using List.find?_some hg
  rw [tallyOf, hg, eq_of_path_eq h (List.mem_of_find?_eq_some hg) hf hpath]

/-- The totals of a valid report add up the counts of its paths. -/
theorem count_summary_paths (k : Count) :
    r.summary.tally.count k = ∑ p ∈ r.paths, (r.tallyOf p).count k := by
  rw [count_summary_files h]
  exact (sum_names (nodup_paths h) _ fun f hf => by rw [tallyOf_path h hf]).symm

end Report

namespace Comparison

/-! ### Languages by name -/

section Languages

variable {r : Report} (h : r.Valid)
include h

/-- The table of languages has their names as keys. -/
theorem keys_languageTable : r.languageTable.keys = r.languages.map (·.language) :=
  Table.map_fst_ofList_keyed (Report.nodup_languages h)

/-- Under a name it has the language of that name. -/
theorem get?_languageTable_iff {name : Letters} {l : LanguageTally} :
    r.languageTable.get? name = some l ↔ l ∈ r.languages ∧ l.language = name :=
  Table.get?_ofList_keyed_iff (Report.nodup_languages h)

/-- It has nothing under any other name. -/
theorem get?_languageTable_eq_none {name : Letters} (hname : name ∉ r.languages.map (·.language)) :
    r.languageTable.get? name = none := by
  rwa [Table.get?_eq_none_iff, ← Table.keys, keys_languageTable h]

/-- The counts of a language are balanced, also those of a language that is absent. -/
theorem balanced_countsOf (name : Letters) :
    (countsOf (r.languageTable.get? name)).2.Balanced := by
  cases hfound : r.languageTable.get? name with
  | none => exact Tally.balanced_zero
  | some l => exact Report.balanced_languages h l ((get?_languageTable_iff h).1 hfound).1

/-- Over any names that include those of all languages, the counts add up to what the languages
    hold: other names count nothing. -/
theorem sum_countsOf {m : Nat × Tally Nat → Nat} (hzero : m (0, Tally.zero) = 0)
    {names : Finset Letters} (hnames : ∀ l ∈ r.languages, l.language ∈ names) :
    ∑ name ∈ names, m (countsOf (r.languageTable.get? name)) =
      (r.languages.map fun l => m (l.fileCount, l.tally)).sum := by
  have hsubset : (r.languages.map (·.language)).toFinset ⊆ names := by
    intro name hname
    obtain ⟨l, hl, rfl⟩ := List.mem_map.1 (List.mem_toFinset.1 hname)
    exact hnames l hl
  have hothers : ∀ name ∈ names, name ∉ (r.languages.map (·.language)).toFinset →
      m (countsOf (r.languageTable.get? name)) = 0 := by
    intro name _ hname
    rw [get?_languageTable_eq_none h fun hmem => hname (List.mem_toFinset.2 hmem)]
    exact hzero
  rw [← Finset.sum_subset hsubset hothers]
  refine sum_names (Report.nodup_languages h) _ fun l hl => ?_
  rw [(get?_languageTable_iff h).2 ⟨hl, rfl⟩]
  rfl

end Languages

/-- A language appears if the old report does not have it. -/
theorem presence_eq_appeared_iff {name : Letters} {old new : Option LanguageTally} :
    (languageChange name old new).presence = .appeared ↔ old = none := by
  cases old <;> cases new <;> simp [languageChange]

/-- Read backwards, the languages that appeared have disappeared. -/
theorem disappeared_reverse (c : Comparison) : c.reverse.disappeared = c.appeared := by
  have hpresence : ((fun l : LanguageChange => l.presence == .disappeared) ∘
      LanguageChange.reverse) = fun l => l.presence == .appeared := by
    funext l
    rw [Function.comp_apply, LanguageChange.reverse]
    cases l.presence <;> rfl
  rw [disappeared, reverse, List.filter_map, List.map_map, hpresence, appeared]
  rfl

section Levels

variable {a b : Report} (ha : a.Valid) (hb : b.Valid)
include ha hb

/-! ### The level of languages -/

/-- A comparison has the languages of both reports. -/
theorem mem_languages_iff {l : LanguageChange} :
    l ∈ (between a b).languages ↔ ∃ name, (name ∈ a.languages.map (·.language) ∨
      name ∈ b.languages.map (·.language)) ∧
        languageChange name (a.languageTable.get? name) (b.languageTable.get? name) = l := by
  simp only [between, List.mem_map, mem_sorted, mem_dedup, List.mem_append, keys_languageTable ha,
    keys_languageTable hb]

/-- **Languages subtract.**  For every number that a language without files does not have, the
    changes of the languages add up to what the new report holds less what the old one holds. -/
theorem sum_change_languages {m : Nat × Tally Nat → Nat} (hzero : m (0, Tally.zero) = 0)
    {w : LanguageChange → Int}
    (hw : ∀ name old new, w (languageChange name old new) = (m (countsOf new) : Int) -
      m (countsOf old)) :
    ((between a b).languages.map w).sum =
      ((b.languages.map fun l => m (l.fileCount, l.tally)).sum : Int) -
        (a.languages.map fun l => m (l.fileCount, l.tally)).sum := by
  have hnames : ((between a b).languages.map (·.language)).Nodup := (ascending_languages a b).nodup
  have hchange : ∀ l ∈ (between a b).languages,
      (m (countsOf (b.languageTable.get? l.language)) : Int) -
        m (countsOf (a.languageTable.get? l.language)) = w l := by
    intro l hl
    obtain ⟨name, -, rfl⟩ := (mem_languages_iff ha hb).1 hl
    exact (hw _ _ _).symm
  have hmem (name : Letters) (hname : name ∈ a.languages.map (·.language) ∨
      name ∈ b.languages.map (·.language)) :
      name ∈ ((between a b).languages.map (·.language)).toFinset :=
    List.mem_toFinset.2 (List.mem_map.2 ⟨_, (mem_languages_iff ha hb).2 ⟨name, hname, rfl⟩, rfl⟩)
  calc ((between a b).languages.map w).sum
      = ∑ name ∈ ((between a b).languages.map (·.language)).toFinset,
          ((m (countsOf (b.languageTable.get? name)) : Int) -
            m (countsOf (a.languageTable.get? name))) := (sum_names hnames _ hchange).symm
    _ = ((b.languages.map fun l => m (l.fileCount, l.tally)).sum : Int) -
          (a.languages.map fun l => m (l.fileCount, l.tally)).sum := by
        rw [Finset.sum_sub_distrib, ← Nat.cast_sum, ← Nat.cast_sum,
          sum_countsOf hb hzero fun l hl => hmem _ (.inr (List.mem_map_of_mem hl)),
          sum_countsOf ha hzero fun l hl => hmem _ (.inl (List.mem_map_of_mem hl))]

/-- **Languages.**  The change of a count of the totals is the sum of the changes of the languages.
    -/
theorem count_totals_languages (k : Count) :
    (between a b).totals.tally.count k =
      ((between a b).languages.map fun l => l.tally.count k).sum := by
  rw [sum_change_languages ha hb (m := fun c => c.2.count k) (Tally.count_zero k)
    fun name old new => Tally.count_change _ _ k, ← Report.count_summary_languages hb,
    ← Report.count_summary_languages ha]
  exact Tally.count_change _ _ k

/-- So is the change of the number of files. -/
theorem fileCount_totals_languages :
    (between a b).totals.fileCount = ((between a b).languages.map (·.fileCount)).sum := by
  rw [sum_change_languages ha hb (m := fun c => c.1) rfl fun name old new => rfl,
    ← Report.fileCount_summary_languages hb, ← Report.fileCount_summary_languages ha]
  rfl

/-- The languages that appeared are those that only the new report has. -/
theorem mem_appeared_iff {name : Letters} :
    name ∈ (between a b).appeared ↔
      name ∈ b.languages.map (·.language) ∧ name ∉ a.languages.map (·.language) := by
  rw [appeared, List.mem_map]
  simp only [List.mem_filter, beq_iff_eq]
  constructor
  · rintro ⟨l, ⟨hl, happeared⟩, rfl⟩
    obtain ⟨name, hname, rfl⟩ := (mem_languages_iff ha hb).1 hl
    rw [presence_eq_appeared_iff, Table.get?_eq_none_iff, ← Table.keys, keys_languageTable ha]
      at happeared
    exact ⟨hname.resolve_left happeared, happeared⟩
  · rintro ⟨hnew, hold⟩
    refine ⟨_, ⟨(mem_languages_iff ha hb).2 ⟨name, .inr hnew, rfl⟩, ?_⟩, rfl⟩
    rw [presence_eq_appeared_iff, get?_languageTable_eq_none ha hold]

/-- The languages that disappeared are those that only the old report has. -/
theorem mem_disappeared_iff {name : Letters} :
    name ∈ (between a b).disappeared ↔
      name ∈ a.languages.map (·.language) ∧ name ∉ b.languages.map (·.language) := by
  rw [between_reverse b a, disappeared_reverse, mem_appeared_iff hb ha]

/-- The number of languages changes by those that appear and those that disappear. -/
theorem languageCount_totals :
    (between a b).totals.languageCount =
      ((between a b).appeared.length : Int) - (between a b).disappeared.length := by
  have hnodup := (ascending_languages a b).nodup
  have hlength := length_sub_length (Report.nodup_languages hb) (Report.nodup_languages ha)
    ((List.filter_sublist.map _).nodup hnodup) ((List.filter_sublist.map _).nodup hnodup)
    (fun _ => mem_appeared_iff ha hb) fun _ => mem_disappeared_iff ha hb
  rw [List.length_map, List.length_map, ← Report.languageCount_summary ha,
    ← Report.languageCount_summary hb] at hlength
  exact hlength

/-! ### The level of files -/

/-- The modified files change by what all files of both reports change by: the others have the same
    counts in both. -/
theorem sum_change_modifiedFiles (k : Count) :
    ((between a b).modifiedFiles.map fun d => d.tally.count k).sum =
      ∑ p ∈ a.paths ∩ b.paths, (((b.tallyOf p).count k : Int) - (a.tallyOf p).count k) := by
  have hchange : ∀ d ∈ (between a b).modifiedFiles,
      ((b.tallyOf d.path).count k : Int) - (a.tallyOf d.path).count k = d.tally.count k := by
    intro d hd
    obtain ⟨f, hf, g, hg, hpath, -, rfl⟩ := (mem_modifiedFiles_iff ha hb).1 hd
    rw [Report.tallyOf_path hb hg, ← hpath, Report.tallyOf_path ha hf]
    exact (Tally.count_change _ _ k).symm
  have hsubset : ((between a b).modifiedFiles.map (·.path)).toFinset ⊆ a.paths ∩ b.paths := by
    intro p hp
    obtain ⟨hold, hnew⟩ := mem_paths_of_modified ha hb (List.mem_toFinset.1 hp)
    exact Finset.mem_inter.2 ⟨Report.mem_paths.2 hold, Report.mem_paths.2 hnew⟩
  have hothers : ∀ p ∈ a.paths ∩ b.paths,
      p ∉ ((between a b).modifiedFiles.map (·.path)).toFinset →
        ((b.tallyOf p).count k : Int) - (a.tallyOf p).count k = 0 := by
    intro p hp hunmodified
    rw [Finset.mem_inter, Report.mem_paths, Report.mem_paths] at hp
    obtain ⟨f, hf, rfl⟩ := List.mem_map.1 hp.1
    obtain ⟨g, hg, hpath⟩ := List.mem_map.1 hp.2
    have hsame : f.tally = g.tally := by
      by_contra hdiffer
      exact hunmodified (List.mem_toFinset.2 ((mem_modifiedPaths_iff ha hb).2
        ⟨f, hf, g, hg, rfl, hpath, .inr hdiffer⟩))
    rw [Report.tallyOf_path ha hf, ← hpath, Report.tallyOf_path hb hg, hsame, Int.sub_self]
  -- The paths of both that are not modified add nothing to the sum.
  rw [← Finset.sum_subset hsubset hothers]
  exact (sum_names (ascending_modifiedFiles a b).nodup _ hchange).symm

/-- **Files subtract.**  A count changes in all by what is in the new files, less what was in the
    removed ones, and by what the modified files change by. -/
theorem count_totals_files (k : Count) :
    (between a b).totals.tally.count k =
      (((between a b).newFiles.map fun p => (b.tallyOf p).count k).sum : Int) -
        ((between a b).removedFiles.map fun p => (a.tallyOf p).count k).sum +
          ((between a b).modifiedFiles.map fun d => d.tally.count k).sum := by
  have hnew : ((between a b).newFiles.map fun p => (b.tallyOf p).count k).sum =
      ∑ p ∈ b.paths \ a.paths, (b.tallyOf p).count k := by
    rw [← List.sum_toFinset _ (ascending_newFiles a b).nodup,
      toFinset_eq_sdiff fun p => mem_newFiles_iff ha hb]
    rfl
  have hremoved : ((between a b).removedFiles.map fun p => (a.tallyOf p).count k).sum =
      ∑ p ∈ a.paths \ b.paths, (a.tallyOf p).count k := by
    rw [← List.sum_toFinset _ (ascending_removedFiles a b).nodup,
      toFinset_eq_sdiff fun p => mem_removedFiles_iff ha hb]
    rfl
  calc (between a b).totals.tally.count k
      = (b.summary.tally.count k : Int) - a.summary.tally.count k := Tally.count_change _ _ k
    _ = ∑ p ∈ b.paths, ((b.tallyOf p).count k : Int) -
          ∑ p ∈ a.paths, ((a.tallyOf p).count k : Int) := by
        rw [Report.count_summary_paths hb, Report.count_summary_paths ha, Nat.cast_sum,
          Nat.cast_sum]
    _ = _ := by
        rw [sum_sub_sum, hnew, hremoved, sum_change_modifiedFiles ha hb, Nat.cast_sum,
          Nat.cast_sum]

/-- The number of files changes by the new ones and the removed ones. -/
theorem fileCount_totals_files :
    (between a b).totals.fileCount =
      ((between a b).newFiles.length : Int) - (between a b).removedFiles.length := by
  have hlength := length_sub_length (Report.nodup_paths hb) (Report.nodup_paths ha)
    (ascending_newFiles a b).nodup (ascending_removedFiles a b).nodup
    (fun _ => mem_newFiles_iff ha hb) fun _ => mem_removedFiles_iff ha hb
  rw [List.length_map, List.length_map, ← Report.fileCount_summary_files ha,
    ← Report.fileCount_summary_files hb] at hlength
  exact hlength

/-! ### Balance -/

/-- The changes of the totals are balanced. -/
theorem balanced_totals : (between a b).totals.tally.BalancedChange :=
  (Report.balanced_summary ha).change (Report.balanced_summary hb)

/-- So are those of each language. -/
theorem balanced_languages : ∀ l ∈ (between a b).languages, l.tally.BalancedChange := by
  intro l hl
  obtain ⟨name, -, rfl⟩ := (mem_languages_iff ha hb).1 hl
  exact (balanced_countsOf ha name).change (balanced_countsOf hb name)

/-- So are those of each file. -/
theorem balanced_modifiedFiles : ∀ d ∈ (between a b).modifiedFiles, d.tally.BalancedChange := by
  intro d hd
  obtain ⟨f, -, g, -, -, -, rfl⟩ := (mem_modifiedFiles_iff ha hb).1 hd
  exact f.balanced.change g.balanced

end Levels

/-- **The levels agree.**  In the comparison of two valid reports every count changes in all by the
    sum of its changes over the languages, and by what the new files have, less what the removed
    ones had, and the sum of its changes over the modified files.  The number of files changes by
    the sum over the languages, and by the new files less the removed ones; that of languages by
    those that appeared less those that disappeared.  In every change the total is the sum of the
    three kinds of lines. -/
theorem levels_agree {a b : Report} (ha : a.Valid) (hb : b.Valid) :
    let c := between a b
    (∀ k, c.totals.tally.count k = (c.languages.map fun l => l.tally.count k).sum ∧
      c.totals.tally.count k =
        ((c.newFiles.map fun p => (b.tallyOf p).count k).sum : Int) -
          (c.removedFiles.map fun p => (a.tallyOf p).count k).sum +
            (c.modifiedFiles.map fun d => d.tally.count k).sum) ∧
    (c.totals.fileCount = (c.languages.map (·.fileCount)).sum ∧
      c.totals.fileCount = (c.newFiles.length : Int) - c.removedFiles.length) ∧
    c.totals.languageCount = (c.appeared.length : Int) - c.disappeared.length ∧
    (c.totals.tally.BalancedChange ∧ (∀ l ∈ c.languages, l.tally.BalancedChange) ∧
      ∀ d ∈ c.modifiedFiles, d.tally.BalancedChange) := by
  refine ⟨fun k => ⟨?_, ?_⟩, ⟨?_, ?_⟩, ?_, ?_, ?_, ?_⟩
  · exact count_totals_languages ha hb k
  · exact count_totals_files ha hb k
  · exact fileCount_totals_languages ha hb
  · exact fileCount_totals_files ha hb
  · exact languageCount_totals ha hb
  · exact balanced_totals ha hb
  · exact balanced_languages ha hb
  · exact balanced_modifiedFiles ha hb

/-- `levels_agree` for reports in which one file is new, one is removed, one has more lines of code
    and one has moved to another language. -/
theorem levels_agree_moved :
    let a : Report :=
      { version := "1.0"
        generatedAt := ⟨2026, 1, 2, 3, 4, 5, 0, none, by decide⟩
        files :=
          [⟨"a.c", "C", ⟨3, 2, 1, 0⟩, by decide⟩, ⟨"b.py", "Python", ⟨4, 2, 1, 1⟩, by decide⟩,
            ⟨"d.h", "C", ⟨1, 1, 0, 0⟩, by decide⟩]
        languages := [⟨"C", 2, ⟨4, 3, 1, 0⟩⟩, ⟨"Python", 1, ⟨4, 2, 1, 1⟩⟩]
        summary := ⟨3, ⟨8, 5, 2, 1⟩, 2⟩
        unsupported := []
        checksum := none }
    let b : Report :=
      { a with
        files :=
          [⟨"a.c", "C", ⟨5, 4, 1, 0⟩, by decide⟩, ⟨"d.h", "C++", ⟨1, 1, 0, 0⟩, by decide⟩,
            ⟨"e.rs", "Rust", ⟨2, 2, 0, 0⟩, by decide⟩]
        languages := [⟨"C", 1, ⟨5, 4, 1, 0⟩⟩, ⟨"C++", 1, ⟨1, 1, 0, 0⟩⟩, ⟨"Rust", 1, ⟨2, 2, 0, 0⟩⟩]
        summary := ⟨3, ⟨8, 7, 1, 0⟩, 3⟩ }
    let c := between a b
    a.Valid ∧ b.Valid ∧ (c.languages.map fun l => l.tally.count .logical).sum = 2 ∧
      ((c.newFiles.map fun p => (b.tallyOf p).count .logical).sum : Int) -
        (c.removedFiles.map fun p => (a.tallyOf p).count .logical).sum +
          (c.modifiedFiles.map fun d => d.tally.count .logical).sum = 2 ∧
      (c.languages.map (·.fileCount)).sum = 0 ∧
      (c.appeared.length : Int) - c.disappeared.length = 1 := by
  intro a b c
  have ha : a.Valid := Report.valid_iff.2 ⟨rfl, by decide, by decide, by decide⟩
  have hb : b.Valid := Report.valid_iff.2 ⟨rfl, by decide, by decide, by decide⟩
  have htotals : c.totals = ⟨0, ⟨0, 2, -1, -1⟩, 1⟩ := rfl
  obtain ⟨hcounts, ⟨hfiles, -⟩, hlanguages, -⟩ := levels_agree ha hb
  have hlogical := hcounts .logical
  rw [show (between a b).totals = _ from htotals] at hlogical hfiles hlanguages
  exact ⟨ha, hb, hlogical.1.symm, hlogical.2.symm, hfiles.symm, hlanguages.symm⟩

end Comparison

end LineCensus
