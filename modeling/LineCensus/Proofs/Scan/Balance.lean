import LineCensus.Proofs.Scan.Shares
import LineCensus.Language.Builtin
import Mathlib.Data.Int.CardIntervalMod

namespace LineCensus.Scan

open Text

/-!
# Shares of one size

Paths are dealt out like cards, so the shares of a request are as long as each other but for one
path:

* `length_stride` — how many paths a share gets.
* `length_le_of_mem_partitions` — enough shares keep every one of them below a cap.
* `shareCount_le`, `le_shareCount_mul` — there are no more shares than paths, and enough of them for
  the chunk size.
* `shares_balanced` — what a request with a chunk size that makes sense is cut into.
-/

variable {n : Nat} {paths s t : List String}

/-! ### Dealing out -/

@[simp] theorem length_partitions (n : Nat) (paths : List String) :
    (partitions n paths).length = n := by
  rw [partitions, List.length_map, List.length_range]

theorem mem_partitions : s ∈ partitions n paths ↔ ∃ i < n, stride n i paths = s := by
  simp only [partitions, List.mem_map, List.mem_range]

/-- The first shares get one of the paths that are left when all shares have the same. -/
theorem length_stride {i : Nat} (hi : i < n) (paths : List String) :
    (stride n i paths).length = paths.length / n + if i < paths.length % n then 1 else 0 := by
  have hn : 0 < n := Nat.zero_lt_of_lt hi
  -- A share has the paths whose place leaves its number when it is divided by that of the shares.
  have hcount : (stride n i paths).length = paths.length.count (· ≡ i [MOD n]) := by
    rw [stride, List.length_map, ← List.countP_eq_length_filter, Nat.count, List.range_eq_range',
      ← List.zipIdx_map_snd, List.countP_map]
    refine List.countP_congr fun a _ => ?_
    simp [Nat.ModEq, Nat.mod_eq_of_lt hi]
  rw [hcount, Nat.count_modEq_card _ hn, Nat.mod_eq_of_lt hi]

example : partitions 3 ["a", "b", "c", "d", "e"] = [["a", "d"], ["b", "e"], ["c"]] := by decide

/-- No share is empty if there are no more of them than paths. -/
theorem ne_nil_of_mem_partitions (hn : n ≤ paths.length) (hs : s ∈ partitions n paths) :
    s ≠ [] := by
  obtain ⟨i, hi, rfl⟩ := mem_partitions.1 hs
  have hsome : 0 < paths.length / n := Nat.div_pos hn (Nat.zero_lt_of_lt hi)
  apply List.ne_nil_of_length_pos
  rw [length_stride hi]
  omega

/-- Two shares differ by one path at most. -/
theorem length_le_succ_of_mem_partitions (hs : s ∈ partitions n paths)
    (ht : t ∈ partitions n paths) : s.length ≤ t.length + 1 := by
  obtain ⟨i, hi, rfl⟩ := mem_partitions.1 hs
  obtain ⟨j, hj, rfl⟩ := mem_partitions.1 ht
  rw [length_stride hi, length_stride hj]
  split <;> omega

/-- If the shares can hold all paths with `c` in each, none holds more than `c`. -/
theorem length_le_of_mem_partitions {c : Nat} (hc : paths.length ≤ n * c)
    (hs : s ∈ partitions n paths) : s.length ≤ c := by
  obtain ⟨i, hi, rfl⟩ := mem_partitions.1 hs
  rw [length_stride hi]
  split
  · next hleft =>
    -- Something is left behind the even part, so that part is below the cap.
    have heven : n * (paths.length / n) < n * c := by
      have := Nat.div_add_mod paths.length n
      omega
    exact Nat.lt_of_mul_lt_mul_left heven
  · exact Nat.div_le_of_le_mul hc

/-! ### The number of shares -/

section Chunk

variable {c : Int} (hc : 1 ≤ c)
include hc

/-- A whole number of chunks that holds `n` paths, the least one. -/
theorem chunks_bounds (n : Nat) :
    (n : Int) ≤ -((-(n : Int)).fdiv c) * c ∧ -((-(n : Int)).fdiv c) ≤ n := by
  rw [Int.fdiv_eq_ediv_of_nonneg _ (by omega)]
  constructor
  · have hmul : c * (-(n : Int) / c) ≤ -(n : Int) := Int.mul_ediv_self_le (by omega)
    linarith
  · have hmul : -(n : Int) * c ≤ -(n : Int) := by nlinarith
    have hdiv : -(n : Int) ≤ -(n : Int) / c := Int.le_ediv_of_mul_le (by omega) hmul
    omega

/-- The shares are enough for all paths with a chunk in each. -/
theorem le_shareCount_mul (workers n : Nat) : (n : Int) ≤ shareCount workers (some c) n * c := by
  obtain ⟨hholds, -⟩ := chunks_bounds hc n
  simp only [shareCount, if_neg (show c ≠ 0 by omega)]
  split
  · next hfew =>
    exact hholds.trans (mul_le_mul_of_nonneg_right hfew.le (by omega))
  · rwa [Int.toNat_of_nonneg (by omega)]

end Chunk

/-- There are no more shares than paths. -/
theorem shareCount_le {workers : Nat} {chunk : Option Int} (hchunk : ∀ c ∈ chunk, 1 ≤ c)
    (hworkers : workers ≤ n) : shareCount workers chunk n ≤ n := by
  cases chunk with
  | none => exact hworkers
  | some c =>
    have hc : 1 ≤ c := hchunk c rfl
    obtain ⟨-, hleast⟩ := chunks_bounds hc n
    simp only [shareCount, if_neg (show c ≠ 0 by omega)]
    split
    · exact hworkers
    · omega

/-! ### Requests -/

/-- **Even shares.**  A request with some path, and with no chunk size or one of at least one path,
    is cut into shares that hold every distinct path once.  None of them is empty and no two differ
    by more than one path; there are at least as many as workers and at most as many as paths, and
    none is longer than the chunk size. -/
theorem shares_balanced (q : Request) (hpaths : q.paths ≠ []) (hchunk : ∀ c ∈ q.chunk, 1 ≤ c) :
    (∀ s ∈ q.shares, s ≠ []) ∧
    (q.shares.flatten.Nodup ∧ ∀ p, p ∈ q.shares.flatten ↔ p ∈ q.paths.map Path.normalize) ∧
    (∀ s ∈ q.shares, ∀ t ∈ q.shares, s.length ≤ t.length + 1) ∧
    (q.workers ≤ q.shares.length ∧ q.shares.length ≤ (uniquePaths q.paths).length) ∧
    ∀ c ∈ q.chunk, ∀ s ∈ q.shares, (s.length : Int) ≤ c := by
  have hunique : uniquePaths q.paths ≠ [] := mt uniquePaths_eq_nil_iff.1 hpaths
  have hpos : 0 < (uniquePaths q.paths).length := List.length_pos_iff.2 hunique
  have hperm := q.shares_flatten_perm hunique
  have hle := shareCount_le hchunk (workers_bounds q.threads q.processors hpos).2
  refine ⟨fun s hs => ne_nil_of_mem_partitions hle hs, ⟨?_, fun p => ?_⟩,
    fun s hs t ht => length_le_succ_of_mem_partitions hs ht, ⟨?_, ?_⟩, fun c hc s hs => ?_⟩
  · exact hperm.nodup_iff.2 (ascending_uniquePaths q.paths).nodup
  · rw [hperm.mem_iff, mem_uniquePaths]
  · rw [Request.shares, length_partitions]
    exact workers_le_shareCount ..
  · rw [Request.shares, length_partitions]
    exact hle
  · -- The chunk size is a natural number, and the shares have room for all paths.
    obtain ⟨k, rfl⟩ := Int.eq_ofNat_of_zero_le (show 0 ≤ c from (hchunk c hc).trans' (by omega))
    have hroom := le_shareCount_mul (hchunk _ hc) q.workers (uniquePaths q.paths).length
    rw [← Option.mem_def.1 hc] at hroom
    exact_mod_cast length_le_of_mem_partitions (by exact_mod_cast hroom) hs

/-- `shares_balanced` for five paths, two workers and a chunk size of two. -/
theorem shares_balanced_five :
    let q : Request :=
      { paths := ["e", "d", "c", "./b", "a", "b"], registry := Registry.withBuiltins []
        threads := some 2, chunk := some 2 }
    q.paths ≠ [] ∧ (∀ c ∈ q.chunk, 1 ≤ c) ∧
      (∀ s ∈ q.shares, s ≠ []) ∧
      (q.shares.flatten.Nodup ∧ ∀ p, p ∈ q.shares.flatten ↔ p ∈ q.paths.map Path.normalize) ∧
      (∀ s ∈ q.shares, ∀ t ∈ q.shares, s.length ≤ t.length + 1) ∧
      (q.workers ≤ q.shares.length ∧ q.shares.length ≤ (uniquePaths q.paths).length) ∧
      ∀ c ∈ q.chunk, ∀ s ∈ q.shares, (s.length : Int) ≤ c := by
  intro q
  have hpaths : q.paths ≠ [] := List.cons_ne_nil _ _
  have hchunk : ∀ c ∈ q.chunk, 1 ≤ c := by
    rintro c ⟨⟩
    decide
  exact ⟨hpaths, hchunk, shares_balanced q hpaths hchunk⟩

end LineCensus.Scan
