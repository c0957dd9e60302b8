import LineCensus.Scan.Basic
import LineCensus.Proofs.Report.Build
import Mathlib.Data.List.Perm.Basic

namespace LineCensus.Scan

open Text

/-!
# Shares and what they come to

However the paths of a request are dealt out, putting the shares together gives what one share with
all paths in order gives:

* `Outcome.counted?`, `Outcome.unsupported?`, `Outcome.failed?` — the three kinds of outcome.
* `scanShare_eq` — a share comes to the outcomes of its paths, kind by kind.
* `partitions_flatten_perm` — dealing out loses no path and gives none twice.
* `conclude_merge` — the result of shares that hold certain distinct paths is that of one share.
-/

/-! ### Outcomes by kind -/

/-- The path that an outcome is about. -/
def Outcome.path : Outcome → Letters
  | .counted f => f.path
  | .unsupported p => p
  | .failed f => ofString f.path

/-- The counts, if the file was counted. -/
def Outcome.counted? : Outcome → Option FileTally
  | .counted f => some f
  | _ => none

/-- The path, if there is no language for it. -/
def Outcome.unsupported? : Outcome → Option Letters
  | .unsupported p => some p
  | _ => none

/-- The fault, if the file failed. -/
def Outcome.failed? : Outcome → Option ScanFault
  | .failed f => some f
  | _ => none

/-- An outcome is about the path it was asked for. -/
theorem outcomeOf_path (registry : Registry) (overrides : Overrides) (exclude : Bool)
    (read : Reader) (p : String) :
    (outcomeOf registry overrides exclude read p).path = ofString p := by
  unfold outcomeOf
  split
  · rfl
  · rfl
  · split
    · next e _ => cases e <;> rfl
    · rfl

variable {outcome : String → Outcome}

/-- A share comes to the outcomes of its paths, kind by kind, behind what is there already. -/
theorem foldl_add (paths : List String) (b : Buffer) :
    paths.foldl (fun b p => b.add (outcome p)) b =
      ⟨b.files ++ paths.filterMap fun p => (outcome p).counted?,
       b.unsupported ++ paths.filterMap fun p => (outcome p).unsupported?,
       b.faults ++ paths.filterMap fun p => (outcome p).failed?⟩ := by
  induction paths generalizing b with
  | nil => simp
  | cons p ps ih =>
    rw [List.foldl_cons, ih]
    cases h : outcome p <;>
      simp [Buffer.add, Outcome.counted?, Outcome.unsupported?, Outcome.failed?, h]

/-- `foldl_add` for a share from its start. -/
theorem scanShare_eq (outcome : String → Outcome) (paths : List String) :
    scanShare outcome paths =
      ⟨paths.filterMap fun p => (outcome p).counted?,
       paths.filterMap fun p => (outcome p).unsupported?,
       paths.filterMap fun p => (outcome p).failed?⟩ := by
  rw [scanShare, foldl_add]
  simp

/-- Shares put together come to the outcomes of all their paths, faults in order. -/
theorem merge_scanShare (shares : List (List String)) :
    merge (shares.map (scanShare outcome)) =
      ⟨shares.flatten.filterMap fun p => (outcome p).counted?,
       shares.flatten.filterMap fun p => (outcome p).unsupported?,
       sortOn (·.path) (shares.flatten.filterMap fun p => (outcome p).failed?)⟩ := by
  simp only [merge, List.flatMap_map, scanShare_eq, List.filterMap_flatten, ← List.flatMap_def]

section Paths

variable (hpath : ∀ p, (outcome p).path = ofString p)

include hpath

theorem counted?_path (p : String) (f : FileTally) (h : (outcome p).counted? = some f) :
    f.path = ofString p := by
  have hp := hpath p
  cases ho : outcome p <;> rw [ho] at h hp <;> cases h
  exact hp

theorem unsupported?_path (p : String) (s : Letters) (h : (outcome p).unsupported? = some s) :
    s = ofString p := by
  have hp := hpath p
  cases ho : outcome p <;> rw [ho] at h hp <;> cases h
  exact hp

theorem failed?_path (p : String) (f : ScanFault) (h : (outcome p).failed? = some f) :
    f.path = p := by
  have hp := hpath p
  cases ho : outcome p <;> rw [ho] at h hp <;> cases h
  exact ofString_injective hp

end Paths

/-! ### Dealing out -/

/-- One item goes to one class. -/
theorem flatMap_range_single {α : Type} (a : α) (c n : Nat) :
    ((List.range n).flatMap fun i => if c == i then [a] else []) = if c < n then [a] else [] := by
  induction n with
  | zero => rfl
  | succ n ih =>
    rw [List.range_succ, List.flatMap_append, ih, List.flatMap_singleton]
    rcases Nat.lt_trichotomy c n with hlt | heq | hgt
    · simp [hlt, hlt.ne, Nat.lt_succ_of_lt hlt]
    · simp [heq]
    · simp [hgt.ne', Nat.not_lt_of_gt hgt, Nat.not_lt_of_ge hgt]

/-- Sorting items into numbered classes keeps every item once. -/
theorem flatMap_filter_class_perm {α : Type} (n : Nat) (cls : α → Nat) (items : List α)
    (h : ∀ a ∈ items, cls a < n) :
    ((List.range n).flatMap fun i => items.filter fun a => cls a == i).Perm items := by
  induction items with
  | nil => simp
  | cons a items ih =>
    have hcons (i : Nat) : ((a :: items).filter fun a => cls a == i) =
        (if cls a == i then [a] else []) ++ items.filter fun a => cls a == i := by
      rw [List.filter_cons]
      split <;> rfl
    simp only [hcons]
    -- The first item stands in its own class only; the classes of the others are as before.
    refine (List.flatMap_append_perm _ _ _).symm.trans ?_
    rw [flatMap_range_single, if_pos (h a List.mem_cons_self)]
    exact (ih fun b hb => h b (List.mem_cons_of_mem a hb)).cons a

/-- **Conservation.**  The shares hold every path as often as there is one to hold. -/
theorem partitions_flatten_perm {n : Nat} (hn : 0 < n) (paths : List String) :
    (partitions n paths).flatten.Perm paths := by
  have hclass : ∀ a ∈ paths.zipIdx, a.2 % n < n := fun a _ => Nat.mod_lt a.2 hn
  have hperm := (flatMap_filter_class_perm n (fun a => a.2 % n) paths.zipIdx hclass).map (·.1)
  rw [List.map_flatMap, List.zipIdx_map_fst] at hperm
  rw [partitions, ← List.flatMap_def]
  exact hperm

/-- There is at least one worker, and there are no more than paths. -/
theorem workers_bounds (threads : Option Int) (processors : Nat) {n : Nat} (hn : 0 < n) :
    0 < workers threads processors n ∧ workers threads processors n ≤ n := by
  have key (wanted : Int) :
      let k := if wanted < 1 then 1 else if wanted.toNat < n then wanted.toNat else n
      0 < k ∧ k ≤ n := by
    dsimp only
    split
    · omega
    · split <;> omega
  exact key _

/-- There are at least as many shares as workers. -/
theorem workers_le_shareCount (workers : Nat) (chunk : Option Int) (n : Nat) :
    workers ≤ shareCount workers chunk n := by
  unfold shareCount
  split
  · exact le_rfl
  · split
    · exact le_rfl
    · dsimp only
      split <;> omega

/-- The shares of a request hold its distinct paths. -/
theorem Request.shares_flatten_perm (q : Request) (h : uniquePaths q.paths ≠ []) :
    q.shares.flatten.Perm (uniquePaths q.paths) := by
  apply partitions_flatten_perm
  exact (workers_bounds _ _ (List.length_pos_iff.2 h)).1.trans_le (workers_le_shareCount ..)

/-! ### Putting together -/

/-- The distinct paths of a request ascend. -/
theorem ascending_uniquePaths (paths : List String) : Ascending (uniquePaths paths) :=
  ascending_sorted_dedup _

@[simp] theorem mem_uniquePaths {paths : List String} {p : String} :
    p ∈ uniquePaths paths ↔ p ∈ paths.map Path.normalize := by
  rw [uniquePaths, mem_sorted, mem_dedup]

theorem uniquePaths_eq_nil_iff {paths : List String} : uniquePaths paths = [] ↔ paths = [] := by
  simp only [List.eq_nil_iff_forall_not_mem, mem_uniquePaths]
  constructor
  · intro h p hp
    exact h _ (List.mem_map_of_mem hp)
  · intro h p hp
    obtain ⟨a, ha, _⟩ := List.mem_map.1 hp
    exact h a ha

/-- **Shares do not show.**  Whatever shares the paths are dealt out to, the result is that of a
    single share with all of them in order. -/
theorem conclude_merge {shares : List (List String)} {unique : List String}
    (hpath : ∀ p, (outcome p).path = ofString p) (hperm : shares.flatten.Perm unique)
    (hasc : Ascending unique) (now : Moment) (n : Nat) :
    conclude now n (merge (shares.map (scanShare outcome))) =
      conclude now n (scanShare outcome unique) := by
  -- Files and unsupported paths are put in order by the report, faults by the merge.
  have hfiles := hperm.filterMap fun p => (outcome p).counted?
  have hunsupported := hperm.filterMap fun p => (outcome p).unsupported?
  have hfaults := sortOn_eq_of_perm_ascending (·.path)
    (hperm.filterMap fun p => (outcome p).failed?)
    (ascending_filterMap (failed?_path hpath) (fun _ _ h => h) hasc)
  have hnodup := (ascending_filterMap (counted?_path hpath) (fun _ _ h => h) hasc).nodup
  have hbuild := Report.build_congr hfiles ((hfiles.map _).nodup_iff.2 hnodup)
    (fun _ => hunsupported.mem_iff) now
  simp only [merge_scanShare, scanShare_eq, conclude, hfaults, hbuild]

/-- The result of a scan is that of a single share with all paths in order. -/
theorem run_eq (q : Request) (read : Reader) (now : Moment) :
    run q read now =
      if uniquePaths q.paths = [] then .error .emptyInput
      else conclude now (uniquePaths q.paths).length
        (scanShare (q.outcome read) (uniquePaths q.paths)) := by
  simp only [run, List.length_eq_zero_iff]
  split
  · rfl
  · next h =>
    exact conclude_merge (outcomeOf_path _ _ _ _) (q.shares_flatten_perm h)
      (ascending_uniquePaths _) now _

end LineCensus.Scan
