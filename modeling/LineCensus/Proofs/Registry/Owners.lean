import LineCensus.Registry
import LineCensus.Proofs.Table
import LineCensus.Proofs.Text.Order
import Mathlib.Data.List.Induction

namespace LineCensus.Registry

open Text

/-!
# Who owns a name or an extension

A registry is built by insertions and deletions, one definition after the other.  What comes of
them can be read off the list of definitions alone:

* `LastWith` — the last definition of a list with some property.
* `Displaced` — a definition that lost every claim, because a later one took its name from it.
* `Holds` — the last definition with a property, if it is not displaced.
* `Reflects` — the invariant of building: the entries of a registry are what the definitions so far
  hold.
* `lookups_build` — what is found in the registry of a list.
-/

variable {ls : List Language} {l d : Language} {i : Nat} {c : Claimant}

/-- `d` stands at place `i`, and it is the last of the list that has the property. -/
def LastWith (p : Language → Prop) (ls : List Language) (i : Nat) (d : Language) : Prop :=
  ls[i]? = some d ∧ p d ∧ ∀ k m, i < k → ls[k]? = some m → ¬ p m

/-- The definition goes by the name, in lowercase. -/
def GoesBy (key : String) (d : Language) : Prop := key ∈ d.lookupNames

/-- The definition claims the extension. -/
def Claims (ext : String) (d : Language) : Prop := ext ∈ d.extensions

/-- The definition at place `j` is called by a name of the one at place `i`, which no definition
    between the two goes by. -/
def DisplacedBy (ls : List Language) (i j : Nat) : Prop :=
  i < j ∧ ∃ d e, ls[i]? = some d ∧ ls[j]? = some e ∧ GoesBy (lowercase e.name) d ∧
    ∀ k m, i < k → k < j → ls[k]? = some m → ¬ GoesBy (lowercase e.name) m

/-- The definition at place `i` is displaced by a later one. -/
def Displaced (ls : List Language) (i : Nat) : Prop := ∃ j, DisplacedBy ls i j

/-- The definition is the last one with the property, and it is not displaced. -/
def Holds (p : Language → Prop) (ls : List Language) (c : Claimant) : Prop :=
  LastWith p ls c.index c.language ∧ ¬ Displaced ls c.index

/-! ### One more definition -/

/-- At the end of a longer list stands the new language, and elsewhere what stood there. -/
theorem getElem?_concat : (ls ++ [l])[i]? = some d ↔ ls[i]? = some d ∨ i = ls.length ∧ l = d := by
  by_cases hi : i < ls.length
  · rw [List.getElem?_append_left hi]
    constructor
    · exact .inl
    · rintro (h | ⟨rfl, -⟩)
      · exact h
      · omega
  · have hnone : ls[i]? = none := List.getElem?_eq_none (by omega)
    rw [List.getElem?_append_right (by omega), hnone, List.getElem?_singleton]
    constructor
    · intro h
      split_ifs at h with heq
      exact .inr ⟨by omega, Option.some.inj h⟩
    · rintro (h | ⟨rfl, rfl⟩)
      · cases h
      · simp

/-- What stands at a place stands before the end. -/
theorem lt_length_of_getElem? (h : ls[i]? = some d) : i < ls.length :=
  (List.getElem?_eq_some_iff.1 h).1

/-- The last definition with a property is the new one, or the old one if the new one has it not. -/
theorem lastWith_concat {p : Language → Prop} :
    LastWith p (ls ++ [l]) i d ↔ i = ls.length ∧ l = d ∧ p d ∨ ¬ p l ∧ LastWith p ls i d := by
  simp only [LastWith, getElem?_concat]
  constructor
  · rintro ⟨hd | ⟨rfl, rfl⟩, hp, hlast⟩
    · have hi := lt_length_of_getElem? hd
      refine .inr ⟨hlast _ l hi (.inr ⟨rfl, rfl⟩), hd, hp, ?_⟩
      exact fun k m hk hm => hlast k m hk (.inl hm)
    · exact .inl ⟨rfl, rfl, hp⟩
  · rintro (⟨rfl, rfl, hp⟩ | ⟨hl, hd, hp, hlast⟩)
    · refine ⟨.inr ⟨rfl, rfl⟩, hp, ?_⟩
      rintro k m hk (hm | ⟨rfl, -⟩)
      · exact absurd (lt_length_of_getElem? hm) (by omega)
      · omega
    · refine ⟨.inl hd, hp, ?_⟩
      rintro k m hk (hm | ⟨-, rfl⟩)
      · exact hlast k m hk hm
      · exact hl

/-- A new definition displaces the last one that goes by its name, and no other. -/
theorem displaced_concat :
    Displaced (ls ++ [l]) i ↔
      Displaced ls i ∨ ∃ d, LastWith (GoesBy (lowercase l.name)) ls i d := by
  constructor
  · rintro ⟨j, hij, d, e, hd, he, hname, hbetween⟩
    rw [getElem?_concat] at hd he
    rcases he with he | ⟨rfl, rfl⟩
    · have hj := lt_length_of_getElem? he
      rcases hd with hd | ⟨rfl, -⟩
      · refine .inl ⟨j, hij, d, e, hd, he, hname, fun k m hk hkj hm => ?_⟩
        exact hbetween k m hk hkj (getElem?_concat.2 (.inl hm))
      · omega
    · -- Nothing stands behind the new definition, so "between" means "later" for the old ones.
      rcases hd with hd | ⟨rfl, -⟩
      · refine .inr ⟨d, hd, hname, fun k m hk hm => ?_⟩
        exact hbetween k m hk (lt_length_of_getElem? hm) (getElem?_concat.2 (.inl hm))
      · omega
  · rintro (⟨j, hij, d, e, hd, he, hname, hbetween⟩ | ⟨d, hd, hname, hlast⟩)
    · refine ⟨j, hij, d, e, getElem?_concat.2 (.inl hd), getElem?_concat.2 (.inl he), hname, ?_⟩
      intro k m hk hkj hm
      rcases getElem?_concat.1 hm with hm | ⟨rfl, -⟩
      · exact hbetween k m hk hkj hm
      · exact absurd (lt_length_of_getElem? he) (by omega)
    · refine ⟨ls.length, lt_length_of_getElem? hd, d, l, getElem?_concat.2 (.inl hd),
        getElem?_concat.2 (.inr ⟨rfl, rfl⟩), hname, ?_⟩
      intro k m hk hkl hm
      rcases getElem?_concat.1 hm with hm | ⟨rfl, -⟩
      · exact hlast k m hk hm
      · omega

/-- The last definition of a list is displaced by none. -/
theorem not_displaced_length (ls : List Language) : ¬ Displaced ls ls.length := by
  rintro ⟨j, hij, d, e, hd, -⟩
  exact absurd (lt_length_of_getElem? hd) (lt_irrefl _)

/-- **One step.**  After one more definition, that one holds what it has, and the others hold what
    they held and it has not, apart from the one that goes by its name. -/
theorem holds_concat {p : Language → Prop} :
    Holds p (ls ++ [l]) c ↔
      p l ∧ c = ⟨ls.length, l⟩ ∨
        ¬ p l ∧ Holds p ls c ∧ ¬ ∃ d, LastWith (GoesBy (lowercase l.name)) ls c.index d := by
  obtain ⟨i, d⟩ := c
  simp only [Holds, lastWith_concat, displaced_concat, not_or, Claimant.mk.injEq]
  constructor
  · rintro ⟨⟨rfl, rfl, hp⟩ | ⟨hl, hlast⟩, hnot, hname⟩
    · exact .inl ⟨hp, rfl, rfl⟩
    · exact .inr ⟨hl, ⟨hlast, hnot⟩, hname⟩
  · rintro (⟨hp, rfl, rfl⟩ | ⟨hl, ⟨hlast, hnot⟩, hname⟩)
    · refine ⟨.inl ⟨rfl, rfl, hp⟩, not_displaced_length ls, ?_⟩
      rintro ⟨e, he, -⟩
      exact absurd (lt_length_of_getElem? he) (lt_irrefl _)
    · exact ⟨.inr ⟨hl, hlast⟩, hnot, hname⟩

/-! ### The invariant of building -/

/-- The entries of the registry are what the definitions of the list hold. -/
structure Reflects (r : Registry) (ls : List Language) : Prop where
  nodup_names : (r.names.map (·.1)).Nodup
  nodup_extensions : (r.extensions.map (·.1)).Nodup
  mem_names : ∀ key c, (key, c) ∈ r.names ↔ Holds (GoesBy key) ls c
  mem_extensions : ∀ ext c, (ext, c) ∈ r.extensions ↔ Holds (Claims ext) ls c

/-- A registry without entries reflects no languages. -/
theorem reflects_empty : Reflects empty [] := by
  have hnone (p : Language → Prop) (c : Claimant) : ¬ Holds p [] c := by
    rintro ⟨⟨h, -⟩, -⟩
    cases h
  exact ⟨List.nodup_nil, List.nodup_nil, fun key c => by simp [empty, hnone],
    fun ext c => by simp [empty, hnone]⟩

/-- What is found under a name is what the definitions hold there. -/
theorem Reflects.get?_names {r : Registry} (h : Reflects r ls) (key : String) (c : Claimant) :
    r.names.get? key = some c ↔ Holds (GoesBy key) ls c :=
  (Table.get?_eq_some_iff h.nodup_names).trans (h.mem_names key c)

/-- What is found under an extension is what the definitions hold there. -/
theorem Reflects.get?_extensions {r : Registry} (h : Reflects r ls) (ext : String)
    (c : Claimant) : r.extensions.get? ext = some c ↔ Holds (Claims ext) ls c :=
  (Table.get?_eq_some_iff h.nodup_extensions).trans (h.mem_extensions ext c)

/-- The old definition of a name is the last one that goes by it. -/
theorem Reflects.index_ne_iff {r : Registry} (h : Reflects r ls) {key : String}
    (hc : ¬ Displaced ls c.index) :
    (∀ old, r.names.get? key = some old → c.index ≠ old.index) ↔
      ¬ ∃ d, LastWith (GoesBy key) ls c.index d := by
  constructor
  · rintro hnone ⟨d, hd⟩
    exact hnone ⟨c.index, d⟩ ((h.get?_names key _).2 ⟨hd, hc⟩) rfl
  · intro hnone old hold heq
    exact hnone ⟨old.language, heq ▸ ((h.get?_names key old).1 hold).1⟩

/-- Two definitions at one place are one. -/
theorem Holds.eq_of_index_eq {p q : Language → Prop} {a b : Claimant} (ha : Holds p ls a)
    (hb : Holds q ls b) (h : a.index = b.index) : a = b := by
  have hlanguage : some a.language = some b.language := ha.1.1.symm.trans (h ▸ hb.1.1)
  cases a
  cases b
  simp_all

/-- When room is made for a language, a name stays with its holder, unless that is the last one that
    goes by the name of the new language. -/
theorem Reflects.mem_names_makeRoom {r : Registry} (h : Reflects r ls) (key : String) :
    (key, c) ∈ (r.makeRoom l).names ↔
      Holds (GoesBy key) ls c ∧ ¬ ∃ d, LastWith (GoesBy (lowercase l.name)) ls c.index d := by
  rw [← h.mem_names key c]
  -- Only entries of the old definition are deleted, and those under a name of its own.
  have hkept : (key, c) ∈ (r.makeRoom l).names ↔ (key, c) ∈ r.names ∧
      ∀ old, r.names.get? (lowercase l.name) = some old → c.index ≠ old.index := by
    rw [makeRoom]
    cases hold : r.names.get? (lowercase l.name) with
    | none => simp
    | some old =>
      simp only [drop, List.mem_filter, Option.some.injEq, forall_eq', Bool.not_eq_true',
        Bool.and_eq_false_iff, List.contains_eq_mem, decide_eq_false_iff_not, beq_eq_false_iff_ne]
      refine and_congr_right fun hmem => ⟨?_, .inr⟩
      rintro (hkey | hne) heq
      · have hc := (h.mem_names key c).1 hmem
        have hsame := hc.eq_of_index_eq ((h.get?_names _ old).1 hold) heq
        exact hkey (hsame ▸ hc.1.2.1)
      · exact hne heq
  rw [hkept]
  exact and_congr_right fun hmem => h.index_ne_iff ((h.mem_names key c).1 hmem).2

/-- So it is with an extension. -/
theorem Reflects.mem_extensions_makeRoom {r : Registry} (h : Reflects r ls) (ext : String) :
    (ext, c) ∈ (r.makeRoom l).extensions ↔
      Holds (Claims ext) ls c ∧ ¬ ∃ d, LastWith (GoesBy (lowercase l.name)) ls c.index d := by
  rw [← h.mem_extensions ext c]
  have hkept : (ext, c) ∈ (r.makeRoom l).extensions ↔ (ext, c) ∈ r.extensions ∧
      ∀ old, r.names.get? (lowercase l.name) = some old → c.index ≠ old.index := by
    rw [makeRoom]
    cases r.names.get? (lowercase l.name) with
    | none => simp
    | some old => simp [drop, List.mem_filter]
  rw [hkept]
  exact and_congr_right fun hmem => h.index_ne_iff ((h.mem_extensions ext c).1 hmem).2

/-- Room is made without repeating a key. -/
theorem nodup_makeRoom {r : Registry} (hnames : (r.names.map (·.1)).Nodup)
    (hextensions : (r.extensions.map (·.1)).Nodup) (l : Language) :
    ((r.makeRoom l).names.map (·.1)).Nodup ∧ ((r.makeRoom l).extensions.map (·.1)).Nodup := by
  rw [makeRoom]
  cases r.names.get? (lowercase l.name) with
  | none => exact ⟨hnames, hextensions⟩
  | some old => exact ⟨Table.nodup_keys_filter hnames _, Table.nodup_keys_filter hextensions _⟩

/-- The sorted extensions of a language are those that it claims. -/
theorem mem_sortedExtensions {ext : String} : ext ∈ sortedExtensions l ↔ Claims ext l := by
  rw [sortedExtensions, mem_sorted, mem_dedup, Claims]

/-- **What a step preserves.**  If a registry shows what a list of definitions holds, then with one
    more definition it shows what the longer list holds. -/
theorem Reflects.add {r : Registry} (h : Reflects r ls) (l : Language) :
    Reflects (r.add ⟨ls.length, l⟩) (ls ++ [l]) := by
  obtain ⟨hnames, hextensions⟩ := nodup_makeRoom h.nodup_names h.nodup_extensions l
  refine
    { nodup_names := Table.nodup_keys_foldl_insert hnames _ _
      nodup_extensions := Table.nodup_keys_foldl_insert hextensions _ _
      mem_names := fun key c => ?_
      mem_extensions := fun ext c => ?_ }
  · rw [Registry.add, claim, Table.mem_foldl_insert, h.mem_names_makeRoom, holds_concat]
    exact Iff.rfl
  · rw [Registry.add, claim, Table.mem_foldl_insert, h.mem_extensions_makeRoom, holds_concat,
      mem_sortedExtensions]

/-! ### Whole registries -/

/-- The last language is entered into the registry of the others. -/
theorem build_concat (ls : List Language) (l : Language) :
    build (ls ++ [l]) = (build ls).add ⟨ls.length, l⟩ := by
  simp only [build, claimants, List.zipIdx_append, List.map_append, List.foldl_append]
  simp

/-- **What a run preserves.**  The registry of a list shows what its definitions hold. -/
theorem reflects_build (ls : List Language) : Reflects (build ls) ls := by
  -- By induction on the list from its end, for definitions are added at the end.
  induction ls using List.reverseRecOn with
  | nil => exact reflects_empty
  | append_singleton ls l ih =>
    rw [build_concat]
    exact ih.add l

/-- **Registries in closed form.**  What is found under a name is the last definition that goes by
    it in lowercase, and what is found under an extension is the last one that claims its normal
    form; but nothing is found if that definition is displaced, for no earlier one takes its
    place. -/
theorem lookups_build (ls : List Language) :
    (∀ name i d, (build ls).get? name = some ⟨i, d⟩ ↔
      LastWith (GoesBy (lowercase name)) ls i d ∧ ¬ Displaced ls i) ∧
    (∀ ext i d, (build ls).forExtension? ext = some ⟨i, d⟩ ↔
      LastWith (Claims (normalizeExtension ext)) ls i d ∧ ¬ Displaced ls i) :=
  ⟨fun name i d => (reflects_build ls).get?_names (lowercase name) ⟨i, d⟩,
    fun ext i d => (reflects_build ls).get?_extensions (normalizeExtension ext) ⟨i, d⟩⟩

end LineCensus.Registry
