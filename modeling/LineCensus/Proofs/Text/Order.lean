import LineCensus.Text.Order
import LineCensus.Proofs.Text.Letter
import Mathlib.Data.List.Lex
import Mathlib.Order.Lex
import Mathlib.Data.List.Nodup
import Mathlib.Data.List.Perm.Subperm

namespace LineCensus.Text

/-!
# Sorting texts

The order by code points is linear on every kind of text, so the lists that are sorted by a text key
are known by their members:

* `before_iff_lt`, `atMost_iff_le` — `before` and `atMost` are the linear order of the code points.
* `sortOn_perm`, `sortOn_pairwise` — sorting rearranges, and the keys come out in order.
* `filter_sortOn` — items with one key keep their order.
* `sortOn_eq_of_perm` — with distinct keys, the order in which the items came does not show.
* `eq_of_ascending_map`, `ascending_ext` — a list whose keys ascend is determined by its members.
* `ascending_sorted_dedup` — sorting the distinct texts gives an ascending list.
-/

/-! ### Distinct texts -/

section Distinct

variable {τ : Type} [DecidableEq τ]

/-- The texts that `dedup` has kept after some more of them. -/
private theorem foldl_dedup (xs seen : List τ) (hs : seen.Nodup) :
    let kept := xs.foldl (fun seen x => if seen.contains x then seen else seen ++ [x]) seen
    kept.Nodup ∧ ∀ s, s ∈ kept ↔ s ∈ seen ∨ s ∈ xs := by
  -- What is kept is distinct at every step, and holds all that was seen.
  induction xs generalizing seen with
  | nil => simpa using hs
  | cons x xs ih =>
    simp only [List.foldl_cons]
    by_cases hx : x ∈ seen
    · rw [if_pos (by simpa using hx)]
      refine ⟨(ih seen hs).1, fun s => ?_⟩
      rw [(ih seen hs).2, List.mem_cons]
      constructor
      · rintro (h | h)
        · exact .inl h
        · exact .inr (.inr h)
      · rintro (h | rfl | h)
        · exact .inl h
        · exact .inl hx
        · exact .inr h
    · rw [if_neg (by simpa using hx)]
      have hs' : (seen ++ [x]).Nodup := by
        rw [List.nodup_append]
        refine ⟨hs, List.nodup_singleton x, ?_⟩
        intro a ha b hb
        rw [List.mem_singleton.1 hb]
        exact fun h => hx (h ▸ ha)
      refine ⟨(ih _ hs').1, fun s => ?_⟩
      rw [(ih _ hs').2, List.mem_append, List.mem_singleton, List.mem_cons, or_assoc]

/-- No text is kept twice. -/
theorem nodup_dedup (xs : List τ) : (dedup xs).Nodup :=
  (foldl_dedup xs [] List.nodup_nil).1

/-- Every text is kept. -/
@[simp] theorem mem_dedup {xs : List τ} {s : τ} : s ∈ dedup xs ↔ s ∈ xs := by
  have h := (foldl_dedup xs [] List.nodup_nil).2 s
  rw [dedup, h]
  simp

/-- There is nothing to drop exactly where there are no repeats. -/
theorem length_dedup_eq_iff {xs : List τ} : (dedup xs).length = xs.length ↔ xs.Nodup := by
  have hsub : dedup xs ⊆ xs := fun s hs => mem_dedup.1 hs
  have hperm : (dedup xs).Subperm xs := List.subperm_of_subset (nodup_dedup xs) hsub
  constructor
  · intro h
    exact (hperm.perm_of_length_le h.ge).nodup_iff.1 (nodup_dedup xs)
  · intro h
    exact ((List.perm_ext_iff_of_nodup (nodup_dedup xs) h).2 fun _ => mem_dedup).length_eq

end Distinct

variable {τ : Type} [Spelled τ]

/-! ### The order itself -/

/-- The code points of a text. -/
def codes (s : τ) : List Nat := (Spelled.spelling s).map Letter.code

/-- A text is known by its code points. -/
theorem codes_injective : Function.Injective (codes : τ → List Nat) := fun _ _ h =>
  spelling_inj.1 (List.map_injective_iff.2 Letter.code_injective h)

theorem precedes_iff_lt (s t : Letters) :
    precedes s t = true ↔ s.map Letter.code < t.map Letter.code := by
  induction s generalizing t with
  | nil => cases t <;> simp [precedes]
  | cons a s ih =>
    cases t with
    | nil => simp [precedes]
    | cons b t =>
      have heq : a = b ↔ a.code = b.code := Letter.code_injective.eq_iff.symm
      simp only [precedes, Bool.or_eq_true, decide_eq_true_eq, Bool.and_eq_true, beq_iff_eq, heq,
        ih, List.map_cons, List.cons_lt_cons_iff]

/-- `before` is the strict order of the code points. -/
theorem before_iff_lt (s t : τ) : before s t = true ↔ codes s < codes t := precedes_iff_lt _ _

/-- `atMost` is the order of the code points. -/
theorem atMost_iff_le (s t : τ) : atMost s t = true ↔ codes s ≤ codes t := by
  rw [atMost, Bool.not_eq_true', ← Bool.not_eq_true, before_iff_lt, not_lt]

theorem not_before_self (s : τ) : ¬before s s = true := by
  rw [before_iff_lt]
  exact lt_irrefl _

/-- An ascending list has no repeats. -/
theorem Ascending.nodup {xs : List τ} (h : Ascending xs) : xs.Nodup :=
  List.Pairwise.imp (fun {a b} hab (heq : a = b) => not_before_self b (heq ▸ hab)) h

theorem atMost_of_before {s t : τ} (h : before s t = true) : atMost s t = true :=
  (atMost_iff_le s t).2 (le_of_lt ((before_iff_lt s t).1 h))

/-- Texts that are at most each other are the same. -/
theorem atMost_antisymm {s t : τ} (hst : atMost s t = true) (hts : atMost t s = true) : s = t :=
  codes_injective (le_antisymm ((atMost_iff_le s t).1 hst) ((atMost_iff_le t s).1 hts))

/-- One of two texts comes before the other if they are not the same. -/
theorem before_of_atMost {s t : τ} (h : atMost s t = true) (hne : s ≠ t) : before s t = true :=
  (before_iff_lt s t).2
    (lt_of_le_of_ne ((atMost_iff_le s t).1 h) fun heq => hne (codes_injective heq))

/-! ### Sorting by a key -/

section SortOn

variable {α : Type} (key : α → τ)

/-- Sorting rearranges. -/
theorem sortOn_perm (xs : List α) : (sortOn key xs).Perm xs :=
  List.mergeSort_perm xs _

@[simp] theorem mem_sortOn {xs : List α} {x : α} : x ∈ sortOn key xs ↔ x ∈ xs :=
  (sortOn_perm key xs).mem_iff

/-- The order by a key is transitive. -/
theorem atMost_trans (a b c : α) (hab : atMost (key a) (key b) = true)
    (hbc : atMost (key b) (key c) = true) : atMost (key a) (key c) = true := by
  rw [atMost_iff_le] at hab hbc ⊢
  exact le_trans hab hbc

/-- Of two keys, one is at most the other. -/
theorem atMost_total (a b : α) : (atMost (key a) (key b) || atMost (key b) (key a)) = true := by
  rw [Bool.or_eq_true, atMost_iff_le, atMost_iff_le]
  exact le_total (codes (key a)) (codes (key b))

/-- Sorting looks at the keys only. -/
theorem map_sortOn {β : Type} (f : β → α) (xs : List β) :
    (sortOn (fun b => key (f b)) xs).map f = sortOn key (xs.map f) :=
  List.map_mergeSort fun _ _ _ _ => rfl

/-- The keys of a sorted list are in order. -/
theorem sortOn_pairwise (xs : List α) :
    (sortOn key xs).Pairwise fun a b => atMost (key a) (key b) = true :=
  List.pairwise_mergeSort (atMost_trans key) (atMost_total key) xs

/-- Sorting is stable: items with one key stay in the order in which they came. -/
theorem filter_sortOn [DecidableEq τ] (xs : List α) (k : τ) :
    (sortOn key xs).filter (fun x => key x = k) = xs.filter fun x => key x = k := by
  -- These items are in order as they stand, so that sorting leaves them so.
  have hordered : (xs.filter fun x => key x = k).Pairwise
      fun a b => atMost (key a) (key b) = true := by
    apply List.pairwise_of_forall_mem_list
    intro a ha b hb
    simp only [List.mem_filter, decide_eq_true_eq] at ha hb
    rw [atMost_iff_le, ha.2, hb.2]
  have hsublist : (xs.filter fun x => key x = k).Sublist (sortOn key xs) :=
    List.sublist_mergeSort (atMost_trans key) (atMost_total key) hordered List.filter_sublist
  have hfiltered := hsublist.filter fun x => key x = k
  rw [List.filter_filter] at hfiltered
  simp only [Bool.and_self] at hfiltered
  have hlength := ((sortOn_perm key xs).filter fun x => key x = k).length_eq
  exact (hfiltered.eq_of_length hlength.symm).symm

/-- A list whose keys are in order is sorted already. -/
theorem sortOn_of_pairwise {xs : List α}
    (h : xs.Pairwise fun a b => atMost (key a) (key b) = true) : sortOn key xs = xs :=
  List.mergeSort_of_pairwise h

/-- With distinct keys, a sorted list ascends strictly. -/
theorem ascending_map_sortOn {xs : List α} (hn : (xs.map key).Nodup) :
    Ascending ((sortOn key xs).map key) := by
  have hnodup : ((sortOn key xs).map key).Nodup :=
    ((sortOn_perm key xs).map key).nodup_iff.2 hn
  have hle : ((sortOn key xs).map key).Pairwise fun s t => atMost s t = true :=
    List.pairwise_map.2 (sortOn_pairwise key xs)
  exact (hle.and hnodup).imp fun h => before_of_atMost h.1 h.2

/-- With distinct keys, the order in which the items came does not show. -/
theorem sortOn_eq_of_perm {xs ys : List α} (h : xs.Perm ys) (hn : (xs.map key).Nodup) :
    sortOn key xs = sortOn key ys := by
  have hperm : (sortOn key xs).Perm (sortOn key ys) :=
    (sortOn_perm key xs).trans (h.trans (sortOn_perm key ys).symm)
  refine hperm.eq_of_pairwise ?_ (sortOn_pairwise key xs) (sortOn_pairwise key ys)
  -- Two items that stand in either order have one key, and keys tell items apart.
  intro a b ha hb hab hba
  have hinj := List.inj_on_of_nodup_map hn
  exact hinj ((mem_sortOn key).1 ha) (h.mem_iff.2 ((mem_sortOn key).1 hb)) (atMost_antisymm hab hba)

/-- A strictly ascending list is what every rearrangement of it is sorted to. -/
theorem sortOn_eq_of_perm_ascending {xs ys : List α} (h : xs.Perm ys)
    (hy : Ascending (ys.map key)) : sortOn key xs = ys := by
  rw [sortOn_eq_of_perm key h ((h.map key).nodup_iff.2 hy.nodup)]
  apply sortOn_of_pairwise
  exact (List.pairwise_map.1 hy).imp atMost_of_before

/-- Items in strictly ascending order of their keys are determined by which items there are. -/
theorem eq_of_ascending_map {xs ys : List α} (hx : Ascending (xs.map key))
    (hy : Ascending (ys.map key)) (h : ∀ x, x ∈ xs ↔ x ∈ ys) : xs = ys := by
  have hperm : xs.Perm ys := (List.perm_ext_iff_of_nodup hx.nodup.of_map hy.nodup.of_map).2 h
  have hsorted : sortOn key xs = xs := sortOn_eq_of_perm_ascending key (List.Perm.refl xs) hx
  rw [← hsorted]
  exact sortOn_eq_of_perm_ascending key hperm hy

end SortOn

section FilterMap

variable {σ : Type} [Spelled σ] {α : Type} {f : τ → Option α} {name : τ → σ} {key : α → σ}
  (hkey : ∀ p a, f p = some a → key a = name p)
include hkey

omit [Spelled σ] [Spelled τ] in
/-- What texts are turned into under their names: some of the names, in their order. -/
theorem map_filterMap_eq_filter (xs : List τ) :
    (xs.filterMap f).map key = (xs.filter fun x => (f x).isSome).map name := by
  induction xs with
  | nil => rfl
  | cons x xs ih =>
    cases h : f x with
    | none => rw [List.filterMap_cons_none h, List.filter_cons_of_neg (by simp [h]), ih]
    | some a =>
      rw [List.filterMap_cons_some h, List.filter_cons_of_pos (by simp [h]), List.map_cons, ih,
        List.map_cons, hkey x a h]

/-- What ascending texts are turned into under their names ascends by name, if names keep the
    order. -/
theorem ascending_filterMap (hname : ∀ p q, before p q = true → before (name p) (name q) = true)
    {xs : List τ} (h : Ascending xs) : Ascending ((xs.filterMap f).map key) := by
  rw [map_filterMap_eq_filter hkey]
  exact List.pairwise_map.2 ((List.Pairwise.filter _ h).imp fun {p q} => hname p q)

end FilterMap

/-- An ascending list is determined by its members. -/
theorem ascending_ext {xs ys : List τ} (hx : Ascending xs) (hy : Ascending ys)
    (h : ∀ s, s ∈ xs ↔ s ∈ ys) : xs = ys :=
  eq_of_ascending_map id (by rwa [List.map_id]) (by rwa [List.map_id]) h

/-- Texts without repeats ascend strictly once they are sorted. -/
theorem ascending_sorted {xs : List τ} (hn : xs.Nodup) : Ascending (sorted xs) := by
  have h : Ascending ((sortOn id xs).map id) := ascending_map_sortOn id (by rwa [List.map_id])
  rwa [List.map_id] at h

/-- A list ascends strictly if it is sorted and has no repeats. -/
theorem ascending_iff_sorted {xs : List τ} : Ascending xs ↔ sorted xs = xs ∧ xs.Nodup := by
  constructor
  · intro h
    exact ⟨sortOn_of_pairwise id (h.imp atMost_of_before), h.nodup⟩
  · rintro ⟨hsorted, hn⟩
    exact hsorted ▸ ascending_sorted hn

/-! ### Distinct texts in order -/

/-- The distinct texts in order. -/
theorem ascending_sorted_dedup [DecidableEq τ] (xs : List τ) : Ascending (sorted (dedup xs)) :=
  ascending_sorted (nodup_dedup xs)

@[simp] theorem mem_sorted {xs : List τ} {s : τ} : s ∈ sorted xs ↔ s ∈ xs :=
  mem_sortOn id

/-- The distinct texts in order depend on nothing but which texts there are. -/
theorem sorted_dedup_congr [DecidableEq τ] {xs ys : List τ} (h : ∀ s, s ∈ xs ↔ s ∈ ys) :
    sorted (dedup xs) = sorted (dedup ys) :=
  ascending_ext (ascending_sorted_dedup xs) (ascending_sorted_dedup ys) (by simpa using h)

/-- An ascending list is what its own texts are sorted to. -/
theorem sorted_dedup_of_mem [DecidableEq τ] {xs ys : List τ} (hy : Ascending ys)
    (h : ∀ s, s ∈ xs ↔ s ∈ ys) :
    sorted (dedup xs) = ys :=
  ascending_ext (ascending_sorted_dedup xs) hy (by simpa using h)

end LineCensus.Text
