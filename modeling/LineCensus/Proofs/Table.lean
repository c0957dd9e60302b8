import LineCensus.Table
import Mathlib.Data.List.Nodup

namespace LineCensus.Table

/-!
# Tables with distinct keys

* `ofList_of_nodup` — pairs with distinct keys are a table as they stand.
* `get?_eq_some_iff` — in such a table the entries are what is found.
* `mem_insert`, `mem_foldl_insert` — the entries after one key, or each of several, got a value.
* `get?_ofList_keyed_iff` — items with distinct keys are found under them.
* `get?_foldl_insert`, `get?_foldl_insertNew` — of several pairs with one key the last is found if
  they overwrite, and the first if they do not.
-/

variable {α κ : Type} [DecidableEq κ]

/-- A key that is missing is none of the keys. -/
theorem has_eq_false_iff {t : Table α κ} {key : κ} :
    t.has key = false ↔ key ∉ t.map (·.1) := by
  simp only [has, List.any_eq_false, beq_iff_eq, List.mem_map, not_exists, not_and]

/-- A new key goes to the end. -/
theorem insert_of_not_mem {t : Table α κ} {key : κ} (h : key ∉ t.map (·.1)) (v : α) :
    t.insert key v = t ++ [(key, v)] := by
  rw [insert, has_eq_false_iff.2 h]
  rfl

/-- Entries with new keys are put behind the table. -/
theorem foldl_insert {t pairs : Table α κ} (h : ((t ++ pairs).map (·.1)).Nodup) :
    pairs.foldl (fun t e => insert t e.1 e.2) t = t ++ pairs := by
  induction pairs generalizing t with
  | nil => exact (List.append_nil t).symm
  | cons e pairs ih =>
    have hsplit : t ++ e :: pairs = (t ++ [e]) ++ pairs := List.append_cons t e pairs
    have hnew : e.1 ∉ t.map (·.1) := by
      rw [List.map_append, List.map_cons] at h
      exact fun hmem => (List.nodup_append.1 h).2.2 _ hmem _ List.mem_cons_self rfl
    rw [List.foldl_cons, insert_of_not_mem hnew, ih (hsplit ▸ h), hsplit]

/-- Pairs with distinct keys overwrite nothing. -/
theorem ofList_of_nodup {pairs : Table α κ} (h : (pairs.map (·.1)).Nodup) : ofList pairs = pairs :=
  foldl_insert (t := []) h

/-! ### Entries -/

/-- What is found under a key is an entry of that key. -/
theorem mem_of_get? {t : Table α κ} {key : κ} {v : α} (h : t.get? key = some v) :
    (key, v) ∈ t := by
  rw [get?, Option.map_eq_some_iff] at h
  obtain ⟨e, he, rfl⟩ := h
  have hkey : e.1 = key := by simpa using List.find?_some he
  rw [← hkey]
  exact List.mem_of_find?_eq_some he

/-- A key with a value is there. -/
theorem has_of_get? {t : Table α κ} {key : κ} {v : α} (h : t.get? key = some v) :
    t.has key = true :=
  List.any_eq_true.2 ⟨(key, v), mem_of_get? h, beq_self_eq_true key⟩

/-- **Entries are found.**  With distinct keys, an entry is what is found under its key. -/
theorem get?_eq_some_iff {t : Table α κ} (hn : (t.map (·.1)).Nodup) {key : κ} {v : α} :
    t.get? key = some v ↔ (key, v) ∈ t := by
  refine ⟨mem_of_get?, fun hmem => ?_⟩
  have hfound : (t.find? fun e => e.1 == key).isSome = true :=
    List.find?_isSome.2 ⟨(key, v), hmem, by simp⟩
  obtain ⟨e, he⟩ := Option.isSome_iff_exists.1 hfound
  have hkey : e.1 = key := by simpa using List.find?_some he
  -- Both entries have one key, so they are one entry.
  have heq : e = (key, v) :=
    List.inj_on_of_nodup_map hn (List.mem_of_find?_eq_some he) hmem hkey
  rw [get?, he, heq]
  rfl

/-- With distinct keys, the order of the entries does not matter. -/
theorem get?_of_perm {t u : Table α κ} (hn : (t.map (·.1)).Nodup) (h : t.Perm u) (key : κ) :
    t.get? key = u.get? key := by
  ext v
  rw [get?_eq_some_iff hn, get?_eq_some_iff ((h.map _).nodup_iff.1 hn), h.mem_iff]

/-- After an insertion the key has the new value, and all others have theirs. -/
theorem mem_insert {t : Table α κ} {key k : κ} {v w : α} :
    (k, v) ∈ t.insert key w ↔ k = key ∧ v = w ∨ k ≠ key ∧ (k, v) ∈ t := by
  rw [insert]
  by_cases hkey : t.has key = true
  · rw [if_pos hkey, List.mem_map]
    constructor
    · rintro ⟨e, he, heq⟩
      by_cases hk : e.1 = key
      · rw [if_pos (by simpa using hk)] at heq
        cases heq
        exact .inl ⟨rfl, rfl⟩
      · rw [if_neg (by simpa using hk)] at heq
        subst heq
        exact .inr ⟨hk, he⟩
    · rintro (⟨rfl, rfl⟩ | ⟨hk, he⟩)
      · -- The key is there, and its entry gets the new value.
        obtain ⟨e, he, hk⟩ := List.any_eq_true.1 hkey
        exact ⟨e, he, if_pos hk⟩
      · exact ⟨(k, v), he, if_neg (by simpa using hk)⟩
  · have hnew : key ∉ t.map (·.1) := has_eq_false_iff.1 (by simpa using hkey)
    rw [if_neg hkey, List.mem_append, List.mem_singleton, Prod.mk.injEq]
    constructor
    · rintro (he | h)
      · refine .inr ⟨?_, he⟩
        rintro rfl
        exact hnew (List.mem_map.2 ⟨_, he, rfl⟩)
      · exact .inl h
    · rintro (h | ⟨-, he⟩)
      · exact .inr h
      · exact .inl he

/-- Every entry of a table of pairs is one of the pairs. -/
theorem mem_of_mem_ofList {pairs : Table α κ} {e : κ × α} (h : e ∈ ofList pairs) :
    e ∈ pairs := by
  suffices hfold : ∀ t : Table α κ, e ∈ pairs.foldl (fun t e => insert t e.1 e.2) t →
      e ∈ t ∨ e ∈ pairs from (hfold [] h).resolve_left List.not_mem_nil
  clear h
  induction pairs with
  | nil => exact fun t h => .inl h
  | cons p pairs ih =>
    intro t h
    rcases ih _ h with hmem | hmem
    · rcases mem_insert.1 (show (e.1, e.2) ∈ _ from hmem) with ⟨hkey, hvalue⟩ | ⟨-, hold⟩
      · exact .inr (List.mem_cons.2 (.inl (Prod.ext hkey hvalue)))
      · exact .inl hold
    · exact .inr (List.mem_cons_of_mem p hmem)

/-- An insertion repeats no key. -/
theorem nodup_keys_insert {t : Table α κ} (h : (t.map (·.1)).Nodup) (key : κ) (v : α) :
    ((t.insert key v).map (·.1)).Nodup := by
  rw [insert]
  by_cases hkey : t.has key = true
  · have hsame : (t.map fun e => if e.1 == key then (key, v) else e).map (·.1) = t.map (·.1) := by
      rw [List.map_map]
      refine List.map_congr_left fun e _ => ?_
      by_cases hk : e.1 = key <;> simp [hk]
    rw [if_pos hkey, hsame]
    exact h
  · have hnew : key ∉ t.map (·.1) := has_eq_false_iff.1 (by simpa using hkey)
    rw [if_neg hkey, List.map_append, List.nodup_append]
    refine ⟨h, List.nodup_singleton key, ?_⟩
    intro a ha b hb
    rw [List.mem_singleton.1 hb]
    rintro rfl
    exact hnew ha

omit [DecidableEq κ] in
/-- Nor does a selection. -/
theorem nodup_keys_filter {t : Table α κ} (h : (t.map (·.1)).Nodup) (p : κ × α → Bool) :
    ((t.filter p).map (·.1)).Nodup :=
  ((List.filter_sublist (l := t)).map _).nodup h

/-- Several keys with one value: they get it, and all others keep theirs. -/
theorem mem_foldl_insert {keys : List κ} {t : Table α κ} {k : κ} {v w : α} :
    (k, v) ∈ keys.foldl (fun t key => t.insert key w) t ↔
      k ∈ keys ∧ v = w ∨ k ∉ keys ∧ (k, v) ∈ t := by
  induction keys generalizing t with
  | nil => simp
  | cons key keys ih =>
    rw [List.foldl_cons, ih, mem_insert, List.mem_cons]
    by_cases hk : k = key
    · subst hk
      by_cases hks : k ∈ keys <;> simp [hks]
    · by_cases hks : k ∈ keys <;> simp [hk, hks]

/-- Nor do several insertions. -/
theorem nodup_keys_foldl_insert {t : Table α κ} (h : (t.map (·.1)).Nodup) (keys : List κ)
    (w : α) : ((keys.foldl (fun t key => t.insert key w) t).map (·.1)).Nodup := by
  induction keys generalizing t with
  | nil => exact h
  | cons key keys ih => exact ih (nodup_keys_insert h key w)

/-! ### Lookups -/

/-- A key is there if it is one of the keys. -/
theorem has_iff {t : Table α κ} {key : κ} : t.has key = true ↔ key ∈ t.map (·.1) := by
  rw [← not_iff_not, Bool.not_eq_true, has_eq_false_iff]

/-- A key has no value exactly if it is none of them. -/
theorem get?_eq_none_iff {t : Table α κ} {key : κ} :
    t.get? key = none ↔ key ∉ t.map (·.1) := by
  rw [get?, Option.map_eq_none_iff, List.find?_eq_none, List.mem_map]
  simp only [beq_iff_eq, not_exists, not_and]

/-- Something is found under the keys and under nothing else. -/
theorem isSome_get?_iff {t : Table α κ} {key : κ} :
    (t.get? key).isSome = true ↔ key ∈ t.map (·.1) := by
  rw [Option.isSome_iff_ne_none, ne_eq, get?_eq_none_iff, not_not]

/-- The first of two tables goes before the second. -/
theorem get?_append (t u : Table α κ) (key : κ) :
    get? (t ++ u) key = (t.get? key).or (u.get? key) := by
  rw [get?, List.find?_append, Option.map_or]
  rfl

/-- A table of one entry has one value. -/
theorem get?_singleton (key k : κ) (v : α) :
    get? [(key, v)] k = if k = key then some v else none := by
  by_cases hk : k = key
  · simp [get?, hk]
  · simp [get?, hk, Ne.symm hk]

/-- Keys may be replaced by others that tell the same entries apart. -/
theorem get?_map {β ν : Type} [DecidableEq ν] {f : κ → ν} (hf : Function.Injective f) (g : α → β)
    (t : Table α κ) (key : κ) :
    get? (t.map fun e => (f e.1, g e.2)) (f key) = (t.get? key).map g := by
  induction t with
  | nil => rfl
  | cons e t ih =>
    rw [List.map_cons, ← List.singleton_append, get?_append, ih, get?_singleton,
      ← List.singleton_append (x := e), get?_append, get?_singleton e.1 key e.2]
    by_cases hk : key = e.1
    · simp [hk]
    · simp [hk, hf.ne hk]

/-- An entry in the middle is found under its key if none stands in front of it. -/
theorem get?_middle {t : Table α κ} {key : κ} (h : key ∉ t.map (·.1)) (u : Table α κ) (k : κ)
    (v : α) : get? (t ++ (key, v) :: u) k = if k = key then some v else get? (t ++ u) k := by
  rw [← List.singleton_append, get?_append, get?_append, get?_append, get?_singleton]
  by_cases hk : k = key
  · subst hk
    simp [get?_eq_none_iff.2 h]
  · simp [hk]

/-- **Insertion.**  The key has the new value, and every other one keeps its own. -/
theorem get?_insert (t : Table α κ) (key k : κ) (v : α) :
    (t.insert key v).get? k = if k = key then some v else t.get? k := by
  rw [insert]
  cases hkey : t.has key with
  | true =>
    -- The value is written into the entry of the key, so the search ends where it ended before.
    have hsame : ((fun e : κ × α => e.1 == k) ∘ fun e => if e.1 == key then (key, v) else e) =
        fun e => e.1 == k := by
      funext e
      by_cases he : e.1 = key <;> simp [he]
    rw [if_pos rfl, get?, List.find?_map, hsame]
    cases hfound : t.find? fun e => e.1 == k with
    | none =>
      have hnone : t.get? k = none := by rw [get?, hfound]; rfl
      have hne : k ≠ key := fun h => get?_eq_none_iff.1 hnone (h ▸ has_iff.1 hkey)
      rw [if_neg hne, hnone]
      rfl
    | some e =>
      have hk : e.1 = k := by simpa using List.find?_some hfound
      rw [get?, hfound, ← hk]
      by_cases he : e.1 = key <;> simp [he]
  | false =>
    rw [if_neg Bool.false_ne_true, get?_append, get?_singleton]
    by_cases hk : k = key
    · rw [hk, get?_eq_none_iff.2 (has_eq_false_iff.1 hkey), Option.none_or]
    · rw [if_neg hk, if_neg hk, Option.or_none]

/-- An insertion of a new key changes nothing if the key is there. -/
theorem get?_insertNew (t : Table α κ) (key k : κ) (v : α) :
    (t.insertNew key v).get? k = (t.get? k).or (if k = key then some v else none) := by
  rw [insertNew]
  cases hkey : t.has key with
  | true =>
    by_cases hk : k = key
    · have hsome := isSome_get?_iff.2 (has_iff.1 hkey)
      obtain ⟨w, hw⟩ := Option.isSome_iff_exists.1 hsome
      rw [if_pos rfl, hk, hw, Option.some_or]
    · rw [if_pos rfl, if_neg hk, Option.or_none]
  | false => rw [if_neg Bool.false_ne_true, get?_append, get?_singleton]

/-- **The last one counts.**  Of pairs that overwrite, the last one of a key is found. -/
theorem get?_foldl_insert (t pairs : Table α κ) (key : κ) :
    (pairs.foldl (fun t e => t.insert e.1 e.2) t).get? key =
      (get? pairs.reverse key).or (t.get? key) := by
  induction pairs generalizing t with
  | nil => rfl
  | cons e pairs ih =>
    rw [List.foldl_cons, ih, get?_insert, List.reverse_cons, get?_append, get?_singleton,
      Option.or_assoc]
    by_cases hk : key = e.1
    · rw [if_pos hk, if_pos hk, Option.some_or]
    · rw [if_neg hk, if_neg hk, Option.none_or]

/-- **The first one counts.**  Of pairs that do not overwrite, the first one of a key is found. -/
theorem get?_foldl_insertNew (t pairs : Table α κ) (key : κ) :
    (pairs.foldl (fun t e => t.insertNew e.1 e.2) t).get? key =
      (t.get? key).or (pairs.get? key) := by
  induction pairs generalizing t with
  | nil => exact Option.or_none.symm
  | cons e pairs ih =>
    have hcons : e :: pairs = [(e.1, e.2)] ++ pairs := rfl
    rw [List.foldl_cons, ih, get?_insertNew, Option.or_assoc, hcons, get?_append, get?_singleton]

/-- A table that is made of pairs repeats no key. -/
theorem nodup_keys_ofList (pairs : Table α κ) : ((ofList pairs).map (·.1)).Nodup := by
  refine List.foldlRecOn (motive := fun t : Table α κ => (t.map (·.1)).Nodup) pairs _ ?_ ?_
  · exact List.nodup_nil
  · exact fun t ht e _ => nodup_keys_insert ht e.1 e.2

/-- Nor does an insertion of a new key. -/
theorem nodup_keys_insertNew {t : Table α κ} (h : (t.map (·.1)).Nodup) (key : κ) (v : α) :
    ((t.insertNew key v).map (·.1)).Nodup := by
  rw [insertNew]
  cases hkey : t.has key with
  | true => exact h
  | false =>
    -- Under a new key there is no difference between the two ways to insert.
    have hinsert := nodup_keys_insert h key v
    rwa [insert, hkey] at hinsert

/-- Nor do several of them. -/
theorem nodup_keys_foldl_insertNew (pairs : Table α κ) :
    ((pairs.foldl (fun t e => insertNew t e.1 e.2) []).map (·.1)).Nodup := by
  refine List.foldlRecOn (motive := fun t : Table α κ => (t.map (·.1)).Nodup) pairs _ ?_ ?_
  · exact List.nodup_nil
  · exact fun t ht e _ => nodup_keys_insertNew ht e.1 e.2

/-! ### Items under their own keys -/

section Keyed

variable {key : α → κ} {xs : List α} (h : (xs.map key).Nodup)
include h

/-- Items with distinct keys are a table as they stand. -/
theorem ofList_keyed : ofList (xs.map fun x => (key x, x)) = xs.map fun x => (key x, x) :=
  ofList_of_nodup (by rw [List.map_map]; exact h)

/-- Things with distinct keys are all there, in their order. -/
theorem map_fst_ofList_keyed : (ofList (xs.map fun x => (key x, x))).map (·.1) = xs.map key := by
  rw [ofList_keyed h, List.map_map]
  rfl

/-- Every item is found under its key. -/
theorem get?_ofList_keyed_iff {k : κ} {x : α} :
    get? (ofList (xs.map fun x => (key x, x))) k = some x ↔ x ∈ xs ∧ key x = k := by
  rw [get?_eq_some_iff (nodup_keys_ofList _), ofList_keyed h, List.mem_map]
  constructor
  · rintro ⟨y, hy, heq⟩
    cases heq
    exact ⟨hy, rfl⟩
  · rintro ⟨hx, rfl⟩
    exact ⟨x, hx, rfl⟩

end Keyed

end LineCensus.Table
