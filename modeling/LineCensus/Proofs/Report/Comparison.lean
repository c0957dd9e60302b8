import LineCensus.Report.Comparison
import LineCensus.Proofs.Table
import LineCensus.Proofs.Text.Order

namespace LineCensus

open Text

/-!
# Comparisons as differences

A comparison is the new report less the old one, with zeros for what a report lacks:

* `Comparison.reverse` — a comparison read backwards: what was new is old, and every change has the
  other sign.
* `Comparison.changeOf` — the change of a language, zeros if the comparison does not have it.
* `between_reverse` — the comparison with the reports exchanged is the one read backwards.
* `changeOf_between` — the change of a language is the difference of its counts.
* `between_subtracts` — both laws of subtraction: exchanging the reports, and going from one to
  another by way of a third.
-/

/-! ### Changes of counts -/

/-- The counts with the other sign. -/
def Tally.neg (t : Tally Int) : Tally Int := t.map (- ·)

/-- The sum of two changes. -/
def Tally.plus (s t : Tally Int) : Tally Int := s.zipWith (· + ·) t

namespace Tally

theorem change_swap (s t : Tally Nat) : t.change s = (s.change t).neg := by
  simp only [change, neg, zipWith, map, Int.neg_sub]

/-- By way of a third tally the change is the same. -/
theorem change_plus_change (s t u : Tally Nat) : (s.change t).plus (t.change u) = s.change u := by
  simp only [change, plus, zipWith, mk.injEq]
  omega

/-- The old counts and the change give the new counts. -/
theorem plus_change (s t : Tally Nat) : (s.map Int.ofNat).plus (s.change t) = t.map Int.ofNat := by
  simp only [change, plus, zipWith, map, mk.injEq, Int.ofNat_eq_natCast]
  omega

end Tally

/-! ### Reading backwards -/

/-- What has appeared has disappeared, seen from the other side. -/
def Presence.reverse : Presence → Presence
  | .appeared => .disappeared
  | .disappeared => .appeared
  | .changed => .changed

/-- The change of a language, read backwards. -/
def LanguageChange.reverse (c : LanguageChange) : LanguageChange where
  language := c.language
  presence := c.presence.reverse
  fileCount := -c.fileCount
  tally := c.tally.neg

/-- The change of the totals, read backwards. -/
def TotalsChange.reverse (c : TotalsChange) : TotalsChange where
  fileCount := -c.fileCount
  tally := c.tally.neg
  languageCount := -c.languageCount

/-- The change of a file, read backwards. -/
def FileChange.reverse (c : FileChange) : FileChange := ⟨c.path, c.tally.neg⟩

/-- A comparison, read backwards. -/
def Comparison.reverse (c : Comparison) : Comparison where
  oldGeneratedAt := c.newGeneratedAt
  newGeneratedAt := c.oldGeneratedAt
  languages := c.languages.map (·.reverse)
  totals := c.totals.reverse
  newFiles := c.removedFiles
  removedFiles := c.newFiles
  modifiedFiles := c.modifiedFiles.map (·.reverse)

/-- The sum of two changes of the totals. -/
def TotalsChange.plus (c d : TotalsChange) : TotalsChange where
  fileCount := c.fileCount + d.fileCount
  tally := c.tally.plus d.tally
  languageCount := c.languageCount + d.languageCount

/-- The change of a language in files and lines; a language that is not in the comparison has not
    changed. -/
def Comparison.changeOf (c : Comparison) (name : Letters) : Int × Tally Int :=
  match c.languages.find? fun l => l.language == name with
  | some l => (l.fileCount, l.tally)
  | none => (0, ⟨0, 0, 0, 0⟩)

/-- The change of a language that one report has at least. -/
theorem languageChange_swap {name : Letters} {old new : Option LanguageTally}
    (h : old.isSome ∨ new.isSome) :
    languageChange name new old = (languageChange name old new).reverse := by
  have hpresence : (languageChange name new old).presence =
      (languageChange name old new).presence.reverse := by
    cases old with
    | none =>
      cases new with
      | none => simp at h
      | some n => rfl
    | some o => cases new <;> rfl
  rw [LanguageChange.reverse, ← hpresence]
  simp only [languageChange, Tally.change_swap (countsOf old).2, Int.neg_sub]

theorem totalsChange_swap (old new : Totals) :
    totalsChange new old = (totalsChange old new).reverse := by
  simp only [totalsChange, TotalsChange.reverse, Tally.change_swap old.tally, Int.neg_sub]

theorem totalsChange_plus (a b c : Totals) :
    (totalsChange a b).plus (totalsChange b c) = totalsChange a c := by
  simp only [totalsChange, TotalsChange.plus, Tally.change_plus_change, TotalsChange.mk.injEq,
    true_and]
  omega

theorem fileChange?_swap {old new : FileTally} (hpath : old.path = new.path) :
    fileChange? new old = (fileChange? old new).map (·.reverse) := by
  rw [fileChange?, fileChange?]
  by_cases hsame : old.language = new.language ∧ old.tally = new.tally
  · rw [if_pos hsame, if_pos ⟨hsame.1.symm, hsame.2.symm⟩]
    rfl
  · rw [if_neg hsame, if_neg fun h => hsame ⟨h.1.symm, h.2.symm⟩]
    simp only [Option.map_some, FileChange.reverse, hpath, Tally.change_swap old.tally]

namespace Comparison

/-! ### Keys of two tables -/

variable {α β : Type}

/-- The common keys of two tables do not depend on which of them comes first. -/
theorem sorted_common_keys {t : Table α Letters} {u : Table β Letters} (ht : t.keys.Nodup)
    (hu : u.keys.Nodup) :
    sorted (t.keys.filter u.has) = sorted (u.keys.filter t.has) := by
  refine ascending_ext (ascending_sorted (ht.filter _)) (ascending_sorted (hu.filter _))
    fun key => ?_
  simp only [mem_sorted, List.mem_filter, Table.has_iff, Table.keys]
  exact and_comm

/-- A file is in the table of a report under its path. -/
theorem path_of_get?_fileTable {r : Report} {p : Letters} {f : FileTally}
    (h : r.fileTable.get? p = some f) : f.path = p := by
  have hmem := Table.mem_of_mem_ofList (Table.mem_of_get? h)
  obtain ⟨g, -, heq⟩ := List.mem_map.1 hmem
  cases heq
  rfl

/-! ### The two laws -/

/-- **Exchanging the reports.**  The comparison is the one read backwards. -/
theorem between_reverse (a b : Report) : between b a = (between a b).reverse := by
  have hnames : sorted (dedup (b.languageTable.keys ++ a.languageTable.keys)) =
      sorted (dedup (a.languageTable.keys ++ b.languageTable.keys)) :=
    sorted_dedup_congr fun name => by rw [List.mem_append, List.mem_append, or_comm]
  have hcommon : sorted (b.fileTable.keys.filter a.fileTable.has) =
      sorted (a.fileTable.keys.filter b.fileTable.has) :=
    sorted_common_keys (Table.nodup_keys_ofList _) (Table.nodup_keys_ofList _)
  simp only [between, reverse, mk.injEq, true_and, hnames, hcommon, List.map_map,
    List.map_filterMap]
  refine ⟨List.map_congr_left fun name hname => ?_, totalsChange_swap _ _,
    List.filterMap_congr fun p _ => ?_⟩
  · -- Every name comes from one of the reports, so the two presences are opposite.
    rw [mem_sorted, mem_dedup, List.mem_append, Table.keys, Table.keys, ← Table.isSome_get?_iff,
      ← Table.isSome_get?_iff] at hname
    exact languageChange_swap hname
  · cases hold : a.fileTable.get? p with
    | none => cases b.fileTable.get? p <;> rfl
    | some f =>
      cases hnew : b.fileTable.get? p with
      | none => rfl
      | some g =>
        exact fileChange?_swap
          ((path_of_get?_fileTable hold).trans (path_of_get?_fileTable hnew).symm)

/-- The languages of a comparison are in order, each once. -/
theorem ascending_languages (a b : Report) :
    Ascending ((between a b).languages.map (·.language)) := by
  have hlanguage : (fun c : LanguageChange => c.language) ∘ (fun name =>
      languageChange name (a.languageTable.get? name) (b.languageTable.get? name)) = id := rfl
  rw [between, List.map_map, hlanguage, List.map_id]
  exact ascending_sorted_dedup _

/-- The change of a language is the difference of its counts. -/
theorem changeOf_between (a b : Report) (name : Letters) :
    (between a b).changeOf name =
      (((countsOf (b.languageTable.get? name)).1 : Int) -
          (countsOf (a.languageTable.get? name)).1,
        (countsOf (a.languageTable.get? name)).2.change
          (countsOf (b.languageTable.get? name)).2) := by
  have hlanguage : ((fun c : LanguageChange => c.language == name) ∘ fun n =>
      languageChange n (a.languageTable.get? n) (b.languageTable.get? n)) = (· == name) := rfl
  rw [changeOf, between, List.find?_map, hlanguage]
  cases hfound : (sorted (dedup (a.languageTable.keys ++ b.languageTable.keys))).find?
      (· == name) with
  | some n =>
    obtain rfl : n = name := by simpa using List.find?_some hfound
    rfl
  | none =>
    -- Neither report has the language, and its counts are zeros on both sides.
    have hmissing : name ∉ a.languageTable.keys ∧ name ∉ b.languageTable.keys := by
      rw [List.find?_eq_none] at hfound
      rw [← not_or, ← List.mem_append, ← mem_dedup, ← mem_sorted]
      exact fun h => hfound name h (beq_self_eq_true name)
    rw [Table.get?_eq_none_iff.2 hmissing.1, Table.get?_eq_none_iff.2 hmissing.2]
    rfl

/-- **Comparisons subtract.**  With the reports exchanged, a comparison is read backwards: times,
    new and removed files and presences are exchanged, and every change has the other sign.  A
    comparison has every language once at most.  The changes from one report to a second and from
    that to a third add up to those from the first to the third, in all and for every language. -/
theorem between_subtracts :
    (∀ a b, between b a = (between a b).reverse) ∧
    (∀ a b, Ascending ((between a b).languages.map (·.language))) ∧
    ∀ a b c, (between a b).totals.plus (between b c).totals = (between a c).totals ∧
      ∀ name, ((between a b).changeOf name).1 + ((between b c).changeOf name).1 =
          ((between a c).changeOf name).1 ∧
        ((between a b).changeOf name).2.plus ((between b c).changeOf name).2 =
          ((between a c).changeOf name).2 := by
  refine ⟨between_reverse, ascending_languages, fun a b c => ⟨totalsChange_plus _ _ _, ?_⟩⟩
  intro name
  simp only [changeOf_between, Tally.change_plus_change, and_true]
  omega

end Comparison

end LineCensus
